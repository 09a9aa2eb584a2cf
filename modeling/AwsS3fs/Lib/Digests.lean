/-
**Message digests.**

MD5 and SHA-1 follow one plan.  The message is padded with a one bit, zero bits and its length in
bits, so that it fills complete blocks of 64 octets; a state of a few words is mixed with one block
after the other; and the digest is the octets of the last state.  They differ in the order of the
octets within a word and in how a block is mixed with the state.  A keyed digest hashes the message
twice, each time after a block that is made from the key.

The functions are stated as in the documents that define them, over words of 32 bits.

Main definitions:

* `Digests.ofLE`, `Digests.ofBE`, `Digests.toLE`, `Digests.toBE` — numbers and their octets;
* `Digests.pad` — the padded message;
* `Digests.MD5.digest` — **MD5**;
* `Digests.SHA1.digest` — **SHA-1**;
* `Digests.keyBlock`, `Digests.hmac` — **the keyed digest** for any digest.
-/

import AwsS3fs.Lib.Bytes
import AwsS3fs.Lib.Blocks

set_option relaxedAutoImplicit false
set_option autoImplicit false

open CLib

namespace Digests

/-! ### Octets, words and padding -/

/-- The number whose octets are given, the least significant one first. -/
def ofLE (bs : Bytes) : ℕ := bs.foldr (fun b n => b.toNat + 256 * n) 0

/-- The number whose octets are given, the most significant one first. -/
def ofBE (bs : Bytes) : ℕ := bs.foldl (fun n b => 256 * n + b.toNat) 0

/-- The `k` lowest octets of a number, the least significant one first. -/
def toLE (k n : ℕ) : Bytes := (List.range k).map fun i => UInt8.ofNat (n / 256 ^ i)

/-- The `k` lowest octets of a number, the most significant one first. -/
def toBE (k n : ℕ) : Bytes := (toLE k n).reverse

@[simp] theorem length_toLE (k n : ℕ) : (toLE k n).length = k := by simp [toLE]

@[simp] theorem length_toBE (k n : ℕ) : (toBE k n).length = k := by simp [toBE]

/-- The octets beyond the `k` lowest do not matter. -/
theorem toLE_mod (k n : ℕ) : toLE k (n % 256 ^ k) = toLE k n := by
  refine List.map_congr_left fun i hi => ?_
  rw [List.mem_range] at hi
  obtain ⟨m, rfl⟩ := Nat.exists_eq_add_of_lt hi
  have hpow : 256 ^ (i + m + 1) = 256 ^ i * 256 ^ (m + 1) := by rw [← pow_add, Nat.add_assoc]
  refine UInt8.toNat_inj.1 ?_
  rw [UInt8.toNat_ofNat', UInt8.toNat_ofNat', hpow, Nat.mod_mul_right_div_self]
  exact Nat.mod_mod_of_dvd _ (dvd_pow_self 256 (Nat.succ_ne_zero m))

theorem toLE_add (j k n : ℕ) : toLE (j + k) n = toLE j n ++ toLE k (n / 256 ^ j) := by
  simp only [toLE, List.range_add, List.map_append, List.map_map]
  congr 1
  refine List.map_congr_left fun i _ => ?_
  rw [Function.comp, pow_add, Nat.div_div_eq_div_mul]

theorem toBE_add (j k n : ℕ) : toBE (j + k) n = toBE k (n / 256 ^ j) ++ toBE j n := by
  rw [toBE, toLE_add, List.reverse_append]
  rfl

theorem toBE_mod (k n : ℕ) : toBE k (n % 256 ^ k) = toBE k n := by
  rw [toBE, toLE_mod, toBE]

/-- The words of a block. -/
def words (read : Bytes → ℕ) (block : Bytes) : List UInt32 :=
  (List.range 16).map fun i => UInt32.ofNat (read ((block.drop (4 * i)).take 4))

/-- A rotation to the left. -/
def rotl (x s : UInt32) : UInt32 := (x <<< s) ||| (x >>> (32 - s))

/-- The number of zero octets that follow the octet `0x80` behind a message. -/
def zeros (length : ℕ) : ℕ := (119 - length % 64) % 64

/-- The padded message: a one bit, zero bits, and the length in bits. -/
def pad (write : ℕ → Bytes) (m : Bytes) : Bytes :=
  m ++ (0x80 :: List.replicate (zeros m.length) 0) ++ write (8 * m.length)

/-! ### MD5 -/

namespace MD5

/-- The four words of the state. -/
structure State where
  A : UInt32
  B : UInt32
  C : UInt32
  D : UInt32
deriving DecidableEq

/-- The state before the first block. -/
def init : State := ⟨0x67452301, 0xefcdab89, 0x98badcfe, 0x10325476⟩

/-- The auxiliary function of a round. -/
def aux (round : ℕ) (x y z : UInt32) : UInt32 :=
  match round with
  | 0 => (x &&& y) ||| (~~~x &&& z)
  | 1 => (x &&& z) ||| (y &&& ~~~z)
  | 2 => x ^^^ y ^^^ z
  | _ => y ^^^ (x ||| ~~~z)

/-- The word of the block that a step of a round adds. -/
def index (round i : ℕ) : ℕ :=
  match round with
  | 0 => i
  | 1 => (1 + 5 * i) % 16
  | 2 => (5 + 3 * i) % 16
  | _ => 7 * i % 16

/-- The rotations of each round. -/
def shifts : List (List UInt32) :=
  [[7, 12, 17, 22], [5, 9, 14, 20], [4, 11, 16, 23], [6, 10, 15, 21]]

/-- The table `T`, the integer part of `4294967296 * abs( sin( i ) )` for `i` from 1 on. -/
def T : List UInt32 :=
  [0xd76aa478, 0xe8c7b756, 0x242070db, 0xc1bdceee, 0xf57c0faf, 0x4787c62a, 0xa8304613, 0xfd469501,
    0x698098d8, 0x8b44f7af, 0xffff5bb1, 0x895cd7be, 0x6b901122, 0xfd987193, 0xa679438e, 0x49b40821,
    0xf61e2562, 0xc040b340, 0x265e5a51, 0xe9b6c7aa, 0xd62f105d, 0x02441453, 0xd8a1e681, 0xe7d3fbc8,
    0x21e1cde6, 0xc33707d6, 0xf4d50d87, 0x455a14ed, 0xa9e3e905, 0xfcefa3f8, 0x676f02d9, 0x8d2a4c8a,
    0xfffa3942, 0x8771f681, 0x6d9d6122, 0xfde5380c, 0xa4beea44, 0x4bdecfa9, 0xf6bb4b60, 0xbebfbc70,
    0x289b7ec6, 0xeaa127fa, 0xd4ef3085, 0x04881d05, 0xd9d4d039, 0xe6db99e5, 0x1fa27cf8, 0xc4ac5665,
    0xf4292244, 0x432aff97, 0xab9423a7, 0xfc93a039, 0x655b59c3, 0x8f0ccc92, 0xffeff47d, 0x85845dd1,
    0x6fa87e4f, 0xfe2ce6e0, 0xa3014314, 0x4e0811a1, 0xf7537e82, 0xbd3af235, 0x2ad7d2bb, 0xeb86d391]

/-- Step `i` of the 64: `a = b + ((a + f( b, c, d ) + X[k] + T[i]) <<< s)`, after which the roles
of the four words move on. -/
def step (X : List UInt32) (r : State) (i : ℕ) : State :=
  let sum := r.A + aux (i / 16) r.B r.C r.D + X.getD (index (i / 16) i) 0 + T.getD i 0
  ⟨r.D, r.B + rotl sum ((shifts.getD (i / 16) []).getD (i % 4) 0), r.B, r.C⟩

/-- One block. -/
def compress (r : State) (block : Bytes) : State :=
  let r' := (List.range 64).foldl (step (words ofLE block)) r
  ⟨r.A + r'.A, r.B + r'.B, r.C + r'.C, r.D + r'.D⟩

/-- The octets of a state. -/
def output (r : State) : Bytes :=
  toLE 4 r.A.toNat ++ toLE 4 r.B.toNat ++ toLE 4 r.C.toNat ++ toLE 4 r.D.toNat

/-- **MD5** of a message. -/
def digest (m : Bytes) : Bytes :=
  output (Blocks.absorb compress 64 init (pad (toLE 8) m))

theorem length_digest (m : Bytes) : (digest m).length = 16 := by simp [digest, output]

end MD5

/-! ### SHA-1 -/

namespace SHA1

/-- The five words of the state. -/
structure State where
  A : UInt32
  B : UInt32
  C : UInt32
  D : UInt32
  E : UInt32
deriving DecidableEq

/-- The state before the first block. -/
def init : State := ⟨0x67452301, 0xefcdab89, 0x98badcfe, 0x10325476, 0xc3d2e1f0⟩

/-- The function of a group of twenty steps. -/
def f (group : ℕ) (B C D : UInt32) : UInt32 :=
  match group with
  | 0 => (B &&& C) ||| (~~~B &&& D)
  | 1 => B ^^^ C ^^^ D
  | 2 => (B &&& C) ||| (B &&& D) ||| (C &&& D)
  | _ => B ^^^ C ^^^ D

/-- The constant of a group. -/
def K (group : ℕ) : UInt32 :=
  match group with
  | 0 => 0x5a827999
  | 1 => 0x6ed9eba1
  | 2 => 0x8f1bbcdc
  | _ => 0xca62c1d6

/-- The words `W( 0 )` to `W( 79 )`: those of the block, and
`W( t ) = S^1( W( t - 3 ) xor W( t - 8 ) xor W( t - 14 ) xor W( t - 16 ) )`. -/
def schedule (block : Bytes) : List UInt32 :=
  (List.range 64).foldl
    (fun W n => W ++ [rotl (W.getD (n + 13) 0 ^^^ W.getD (n + 8) 0 ^^^ W.getD (n + 2) 0 ^^^
      W.getD n 0) 1])
    (words ofBE block)

/-- Step `t` of the 80. -/
def step (W : List UInt32) (r : State) (t : ℕ) : State :=
  ⟨rotl r.A 5 + f (t / 20) r.B r.C r.D + r.E + W.getD t 0 + K (t / 20), r.A, rotl r.B 30,
    r.C, r.D⟩

/-- One block. -/
def compress (r : State) (block : Bytes) : State :=
  let r' := (List.range 80).foldl (step (schedule block)) r
  ⟨r.A + r'.A, r.B + r'.B, r.C + r'.C, r.D + r'.D, r.E + r'.E⟩

/-- The octets of a state. -/
def output (r : State) : Bytes :=
  toBE 4 r.A.toNat ++ toBE 4 r.B.toNat ++ toBE 4 r.C.toNat ++ toBE 4 r.D.toNat ++ toBE 4 r.E.toNat

/-- **SHA-1** of a message. -/
def digest (m : Bytes) : Bytes :=
  output (Blocks.absorb compress 64 init (pad (toBE 8) m))

theorem length_digest (m : Bytes) : (digest m).length = 20 := by simp [digest, output]

end SHA1

/-! ### Keyed digests -/

section Keyed

variable (H : Bytes → Bytes) (B : ℕ)

/-- The key filled up with zeros to the size of a block, or its digest if it is longer. -/
def keyBlock (key : Bytes) : Bytes :=
  let K := if B < key.length then H key else key
  K ++ List.replicate (B - K.length) 0

/-- The two digests that are keyed with a block. -/
def keyed (K m : Bytes) : Bytes :=
  H (K.map (· ^^^ 0x5c) ++ H (K.map (· ^^^ 0x36) ++ m))

/-- **The keyed digest.** -/
def hmac (key m : Bytes) : Bytes := keyed H (keyBlock H B key) m

end Keyed

end Digests
