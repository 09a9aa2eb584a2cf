/-
**One block of a digest.**

`digest.c` computes MD5 and SHA-1 in one state: the registers, a count of the bytes, and a buffer
of 128 bytes for what does not fill a block yet.  This module has the state and the functions that
mix blocks with the registers, written out as in the source: the 64 operations of MD5 with their
four registers in turn, and the 80 steps of SHA-1 in four loops.

In MD5 the operations do not move the registers; the next operation names them in another order.
What is carried through the 64 operations is therefore the state as seen from the register that is
written next.

Main definitions:

* `AwsS3fs.DigestState` — the state of both digests;
* `AwsS3fs.md5Ops`, `AwsS3fs.md5ProcessBlock` — MD5 over complete blocks;
* `AwsS3fs.sha1ProcessMessageBlock` — SHA-1 over the block in the buffer;
* `AwsS3fs.Registers.seenFrom` — the registers in the order of the next operation.

Main results:

* `AwsS3fs.md5Ops_eq` — the table of operations is the one of MD5;
* `AwsS3fs.md5Rounds_eq` — **the 64 operations are the compression of MD5**;
* `AwsS3fs.sha1_sha1ProcessMessageBlock` — **the four loops are the compression of SHA-1**.
-/

import AwsS3fs.Lib.Digests
import Mathlib.Data.List.GetD

set_option relaxedAutoImplicit false
set_option autoImplicit false

open CLib Digests

namespace AwsS3fs

/-- The registers `A` to `E`.  MD5 has no `E`. -/
structure Registers where
  A : UInt32
  B : UInt32
  C : UInt32
  D : UInt32
  E : UInt32

/-- `struct DigestState`. -/
structure DigestState where
  registers : Registers
  /-- `total[ 0 ]`. -/
  total0 : UInt32
  /-- `total[ 1 ]`. -/
  total1 : UInt32
  buflen : ℕ
  buffer : CharArray
  computed : Bool
  corrupted : Bool

/-- `InitializeDigestState`.  The buffer keeps whatever it holds. -/
def initializeDigestState (ctx : DigestState) : DigestState :=
  { ctx with
    registers := ⟨0x67452301, 0xefcdab89, 0x98badcfe, 0x10325476, 0xc3d2e1f0⟩
    total0 := 0
    total1 := 0
    buflen := 0
    computed := false
    corrupted := false }

/-! ### MD5 -/

/-- `ROTATE`. -/
def rotate (w s : UInt32) : UInt32 := (w <<< s) ||| (w >>> (32 - s))

/-- `FF`. -/
def md5FF (b c d : UInt32) : UInt32 := d ^^^ (b &&& (c ^^^ d))

/-- `FG`. -/
def md5FG (b c d : UInt32) : UInt32 := md5FF d b c

/-- `FH`. -/
def md5FH (b c d : UInt32) : UInt32 := b ^^^ c ^^^ d

/-- `FI`. -/
def md5FI (b c d : UInt32) : UInt32 := c ^^^ (b ||| ~~~d)

/-- The functions that an operation may apply. -/
inductive Md5Function
  | FF | FG | FH | FI
deriving DecidableEq

def Md5Function.apply : Md5Function → UInt32 → UInt32 → UInt32 → UInt32
  | .FF => md5FF
  | .FG => md5FG
  | .FH => md5FH
  | .FI => md5FI

/-- The register that an operation writes.  The other three follow it in the order `A B C D A`. -/
inductive Register
  | A | B | C | D
deriving DecidableEq

/-- An operation: the register, the rotation, the constant and the word of the block. -/
structure Md5Op where
  f : Md5Function
  a : Register
  s : UInt32
  T : UInt32
  word : ℕ
deriving DecidableEq

/-- The 64 operations of `MD5ProcessBlock`. -/
def md5Ops : List Md5Op :=
  [ -- round 1
    ⟨.FF, .A, 7, 0xd76aa478, 0⟩,
    ⟨.FF, .D, 12, 0xe8c7b756, 1⟩,
    ⟨.FF, .C, 17, 0x242070db, 2⟩,
    ⟨.FF, .B, 22, 0xc1bdceee, 3⟩,
    ⟨.FF, .A, 7, 0xf57c0faf, 4⟩,
    ⟨.FF, .D, 12, 0x4787c62a, 5⟩,
    ⟨.FF, .C, 17, 0xa8304613, 6⟩,
    ⟨.FF, .B, 22, 0xfd469501, 7⟩,
    ⟨.FF, .A, 7, 0x698098d8, 8⟩,
    ⟨.FF, .D, 12, 0x8b44f7af, 9⟩,
    ⟨.FF, .C, 17, 0xffff5bb1, 10⟩,
    ⟨.FF, .B, 22, 0x895cd7be, 11⟩,
    ⟨.FF, .A, 7, 0x6b901122, 12⟩,
    ⟨.FF, .D, 12, 0xfd987193, 13⟩,
    ⟨.FF, .C, 17, 0xa679438e, 14⟩,
    ⟨.FF, .B, 22, 0x49b40821, 15⟩,
    -- round 2
    ⟨.FG, .A, 5, 0xf61e2562, 1⟩,
    ⟨.FG, .D, 9, 0xc040b340, 6⟩,
    ⟨.FG, .C, 14, 0x265e5a51, 11⟩,
    ⟨.FG, .B, 20, 0xe9b6c7aa, 0⟩,
    ⟨.FG, .A, 5, 0xd62f105d, 5⟩,
    ⟨.FG, .D, 9, 0x02441453, 10⟩,
    ⟨.FG, .C, 14, 0xd8a1e681, 15⟩,
    ⟨.FG, .B, 20, 0xe7d3fbc8, 4⟩,
    ⟨.FG, .A, 5, 0x21e1cde6, 9⟩,
    ⟨.FG, .D, 9, 0xc33707d6, 14⟩,
    ⟨.FG, .C, 14, 0xf4d50d87, 3⟩,
    ⟨.FG, .B, 20, 0x455a14ed, 8⟩,
    ⟨.FG, .A, 5, 0xa9e3e905, 13⟩,
    ⟨.FG, .D, 9, 0xfcefa3f8, 2⟩,
    ⟨.FG, .C, 14, 0x676f02d9, 7⟩,
    ⟨.FG, .B, 20, 0x8d2a4c8a, 12⟩,
    -- round 3
    ⟨.FH, .A, 4, 0xfffa3942, 5⟩,
    ⟨.FH, .D, 11, 0x8771f681, 8⟩,
    ⟨.FH, .C, 16, 0x6d9d6122, 11⟩,
    ⟨.FH, .B, 23, 0xfde5380c, 14⟩,
    ⟨.FH, .A, 4, 0xa4beea44, 1⟩,
    ⟨.FH, .D, 11, 0x4bdecfa9, 4⟩,
    ⟨.FH, .C, 16, 0xf6bb4b60, 7⟩,
    ⟨.FH, .B, 23, 0xbebfbc70, 10⟩,
    ⟨.FH, .A, 4, 0x289b7ec6, 13⟩,
    ⟨.FH, .D, 11, 0xeaa127fa, 0⟩,
    ⟨.FH, .C, 16, 0xd4ef3085, 3⟩,
    ⟨.FH, .B, 23, 0x04881d05, 6⟩,
    ⟨.FH, .A, 4, 0xd9d4d039, 9⟩,
    ⟨.FH, .D, 11, 0xe6db99e5, 12⟩,
    ⟨.FH, .C, 16, 0x1fa27cf8, 15⟩,
    ⟨.FH, .B, 23, 0xc4ac5665, 2⟩,
    -- round 4
    ⟨.FI, .A, 6, 0xf4292244, 0⟩,
    ⟨.FI, .D, 10, 0x432aff97, 7⟩,
    ⟨.FI, .C, 15, 0xab9423a7, 14⟩,
    ⟨.FI, .B, 21, 0xfc93a039, 5⟩,
    ⟨.FI, .A, 6, 0x655b59c3, 12⟩,
    ⟨.FI, .D, 10, 0x8f0ccc92, 3⟩,
    ⟨.FI, .C, 15, 0xffeff47d, 10⟩,
    ⟨.FI, .B, 21, 0x85845dd1, 1⟩,
    ⟨.FI, .A, 6, 0x6fa87e4f, 8⟩,
    ⟨.FI, .D, 10, 0xfe2ce6e0, 15⟩,
    ⟨.FI, .C, 15, 0xa3014314, 6⟩,
    ⟨.FI, .B, 21, 0x4e0811a1, 13⟩,
    ⟨.FI, .A, 6, 0xf7537e82, 4⟩,
    ⟨.FI, .D, 10, 0xbd3af235, 11⟩,
    ⟨.FI, .C, 15, 0x2ad7d2bb, 2⟩,
    ⟨.FI, .B, 21, 0xeb86d391, 9⟩]

/-- The registers in the order in which an operation that writes `a` names them. -/
def Registers.seenFrom (r : Registers) (a : Register) : MD5.State :=
  match a with
  | .A => ⟨r.A, r.B, r.C, r.D⟩
  | .D => ⟨r.D, r.A, r.B, r.C⟩
  | .C => ⟨r.C, r.D, r.A, r.B⟩
  | .B => ⟨r.B, r.C, r.D, r.A⟩

def Registers.set (r : Registers) (a : Register) (value : UInt32) : Registers :=
  match a with
  | .A => { r with A := value }
  | .B => { r with B := value }
  | .C => { r with C := value }
  | .D => { r with D := value }

/-- `OP` and `OP_fn`. -/
def Md5Op.apply (correctWords : List UInt32) (r : Registers) (op : Md5Op) : Registers :=
  let ⟨a, b, c, d⟩ := r.seenFrom op.a
  r.set op.a (rotate (a + op.f.apply b c d + correctWords.getD op.word 0 + op.T) op.s + b)

/-- One round of the loop of `MD5ProcessBlock`: 64 bytes, read as words of a little-endian host. -/
def md5Rounds (saved : Registers) (block : Bytes) : Registers :=
  let r := md5Ops.foldl (Md5Op.apply (words ofLE block)) saved
  { r with A := r.A + saved.A, B := r.B + saved.B, C := r.C + saved.C, D := r.D + saved.D }

/-- `MD5ProcessBlock`, for a multiple of 64 bytes. -/
def md5ProcessBlock (buffer : Bytes) (ctx : DigestState) : DigestState :=
  let total0 := ctx.total0 + UInt32.ofNat buffer.length
  { ctx with
    total0 := total0
    total1 := if total0.toNat < buffer.length then ctx.total1 + 1 else ctx.total1
    registers := Blocks.absorb md5Rounds 64 ctx.registers buffer }

/-- The register that is written after a register. -/
def Register.next : Register → Register
  | .A => .D
  | .D => .C
  | .C => .B
  | .B => .A

/-- The register that operation `i` writes. -/
def Register.atStep (i : ℕ) : Register :=
  match i % 4 with
  | 0 => .A
  | 1 => .D
  | 2 => .C
  | _ => .B

/-- The function of a round. -/
def Md5Function.ofRound : ℕ → Md5Function
  | 0 => .FF
  | 1 => .FG
  | 2 => .FH
  | _ => .FI

/-- The operation that MD5 has as step `i`. -/
def Md5Op.atStep (i : ℕ) : Md5Op where
  f := Md5Function.ofRound (i / 16)
  a := Register.atStep i
  s := (MD5.shifts.getD (i / 16) []).getD (i % 4) 0
  T := MD5.T.getD i 0
  word := MD5.index (i / 16) i

/-- **The table of operations is the one of MD5**, with all constants, rotations and words. -/
theorem md5Ops_eq : md5Ops = (List.range 64).map Md5Op.atStep := by decide +kernel

theorem Register.next_atStep (i : ℕ) : (Register.atStep i).next = Register.atStep (i + 1) := by
  have hcases : i % 4 = 0 ∨ i % 4 = 1 ∨ i % 4 = 2 ∨ i % 4 = 3 := by omega
  rcases hcases with h | h | h | h
  · rw [atStep, atStep, h, show (i + 1) % 4 = 1 by omega]; rfl
  · rw [atStep, atStep, h, show (i + 1) % 4 = 2 by omega]; rfl
  · rw [atStep, atStep, h, show (i + 1) % 4 = 3 by omega]; rfl
  · rw [atStep, atStep, h, show (i + 1) % 4 = 0 by omega]; rfl

/-! The functions of the source are those of MD5, one of them rewritten. -/

theorem md5FF_eq (b c d : UInt32) : md5FF b c d = (b &&& c) ||| (~~~b &&& d) := by
  refine UInt32.toBitVec_inj.1 ?_
  ext i hi
  simp only [md5FF, UInt32.toBitVec_xor, UInt32.toBitVec_and, UInt32.toBitVec_or,
    UInt32.toBitVec_not, BitVec.getElem_xor, BitVec.getElem_and, BitVec.getElem_or,
    BitVec.getElem_not]
  cases b.toBitVec[i] <;> cases c.toBitVec[i] <;> cases d.toBitVec[i] <;> rfl

theorem Md5Function.apply_ofRound (round : ℕ) (b c d : UInt32) :
    (ofRound round).apply b c d = MD5.aux round b c d := by
  match round with
  | 0 => exact md5FF_eq b c d
  | 1 =>
      change md5FF d b c = (b &&& d) ||| (c &&& ~~~d)
      rw [md5FF_eq, UInt32.and_comm d b, UInt32.and_comm (~~~d) c]
  | 2 => rfl
  | _ + 3 => rfl

/-- The next operation sees the register that was just written in the second place. -/
theorem Registers.seenFrom_set (r : Registers) (a : Register) (value : UInt32) :
    (r.set a value).seenFrom a.next
      = ⟨(r.seenFrom a).D, value, (r.seenFrom a).B, (r.seenFrom a).C⟩ := by
  cases a <;> rfl

@[simp] theorem Registers.E_set (r : Registers) (a : Register) (value : UInt32) :
    (r.set a value).E = r.E := by
  cases a <;> rfl

/-- **One operation is one step of MD5**, as seen from the register that is written next. -/
theorem Md5Op.seenFrom_apply (X : List UInt32) (r : Registers) (i : ℕ) :
    ((Md5Op.atStep i).apply X r).seenFrom (Register.atStep (i + 1))
      = MD5.step X (r.seenFrom (Register.atStep i)) i := by
  rw [← Register.next_atStep]
  simp only [Md5Op.apply, Md5Op.atStep, Registers.seenFrom_set, Md5Function.apply_ofRound, MD5.step]
  rw [UInt32.add_comm (rotate _ _)]
  rfl

/-- The operations up to one are the steps up to it. -/
theorem seenFrom_foldl_apply (X : List UInt32) (r : Registers) (n : ℕ) :
    (((List.range n).map Md5Op.atStep).foldl (Md5Op.apply X) r).seenFrom (Register.atStep n)
      = (List.range n).foldl (MD5.step X) (r.seenFrom .A) := by
  induction n with
  | zero => rfl
  | succ n ih =>
      rw [List.range_succ, List.map_append, List.foldl_append, List.foldl_append, ← ih]
      exact Md5Op.seenFrom_apply X _ n

/-- **The 64 operations are the compression of MD5.** -/
theorem md5Rounds_eq (r : Registers) (block : Bytes) :
    (md5Rounds r block).seenFrom .A = MD5.compress (r.seenFrom .A) block := by
  have hsteps := seenFrom_foldl_apply (words ofLE block) r 64
  rw [← md5Ops_eq] at hsteps
  simp only [md5Rounds, Registers.seenFrom, MD5.compress]
  rw [show (⟨r.A, r.B, r.C, r.D⟩ : MD5.State) = r.seenFrom .A from rfl, ← hsteps]
  simp only [show Register.atStep 64 = .A from rfl, Registers.seenFrom, UInt32.add_comm]

/-- The registers after complete blocks. -/
theorem seenFrom_absorb (r : Registers) (buffer : Bytes) :
    (Blocks.absorb md5Rounds 64 r buffer).seenFrom .A
      = Blocks.absorb MD5.compress 64 (r.seenFrom .A) buffer := by
  unfold Blocks.absorb
  induction List.range (buffer.length / 64) generalizing r with
  | nil => rfl
  | cons i l ih => rw [List.foldl_cons, List.foldl_cons, ih, md5Rounds_eq]

/-! ### SHA-1 -/

/-- `SHA1CircularShift`. -/
def sha1CircularShift (bits word : UInt32) : UInt32 :=
  ((word <<< bits) &&& 0xFFFFFFFF) ||| (word >>> (32 - bits))

/-- The word sequence `W`. -/
def sha1W (buffer : CharArray) : List UInt32 :=
  let W := (List.range 16).map fun t =>
    ((buffer (t * 4)).toUInt32 <<< 24) ||| ((buffer (t * 4 + 1)).toUInt32 <<< 16) |||
      ((buffer (t * 4 + 2)).toUInt32 <<< 8) ||| (buffer (t * 4 + 3)).toUInt32
  (List.range' 16 64).foldl
    (fun W t => W ++ [sha1CircularShift 1 (W.getD (t - 3) 0 ^^^ W.getD (t - 8) 0 ^^^
      W.getD (t - 14) 0 ^^^ W.getD (t - 16) 0)])
    W

/-- The body of one of the four loops. -/
def sha1Loop (f : UInt32 → UInt32 → UInt32 → UInt32) (K : UInt32) (W : List UInt32)
    (r : Registers) (t : ℕ) : Registers :=
  let temp := sha1CircularShift 5 r.A + f r.B r.C r.D + r.E + W.getD t 0 + K
  ⟨temp &&& 0xFFFFFFFF, r.A, sha1CircularShift 30 r.B, r.C, r.D⟩

/-- `SHA1ProcessMessageBlock`. -/
def sha1ProcessMessageBlock (ctx : DigestState) : DigestState :=
  let W := sha1W ctx.buffer
  let r := ctx.registers
  let r := (List.range' 0 20).foldl
    (sha1Loop (fun B C D => (B &&& C) ||| (~~~B &&& D)) 0x5A827999 W) r
  let r := (List.range' 20 20).foldl (sha1Loop (fun B C D => B ^^^ C ^^^ D) 0x6ED9EBA1 W) r
  let r := (List.range' 40 20).foldl
    (sha1Loop (fun B C D => (B &&& C) ||| (B &&& D) ||| (C &&& D)) 0x8F1BBCDC W) r
  let r := (List.range' 60 20).foldl (sha1Loop (fun B C D => B ^^^ C ^^^ D) 0xCA62C1D6 W) r
  { ctx with
    registers :=
      ⟨(ctx.registers.A + r.A) &&& 0xFFFFFFFF, (ctx.registers.B + r.B) &&& 0xFFFFFFFF,
        (ctx.registers.C + r.C) &&& 0xFFFFFFFF, (ctx.registers.D + r.D) &&& 0xFFFFFFFF,
        (ctx.registers.E + r.E) &&& 0xFFFFFFFF⟩
    buflen := 0 }

/-- The registers as the state of SHA-1. -/
def Registers.sha1 (r : Registers) : SHA1.State := ⟨r.A, r.B, r.C, r.D, r.E⟩

theorem and_ffffffff (x : UInt32) : x &&& 0xFFFFFFFF = x := UInt32.and_neg_one

theorem sha1CircularShift_eq (bits word : UInt32) :
    sha1CircularShift bits word = rotl word bits := by
  rw [sha1CircularShift, and_ffffffff, rotl]

/-- Four bytes shifted into their places are a word, the most significant byte first. -/
theorem shiftLeft_or_eq (a b c d : UInt8) :
    (a.toUInt32 <<< 24) ||| (b.toUInt32 <<< 16) ||| (c.toUInt32 <<< 8) ||| d.toUInt32
      = UInt32.ofNat (ofBE [a, b, c, d]) := by
  have ha := a.toNat_lt
  have hb := b.toNat_lt
  have hc := c.toNat_lt
  have hd := d.toNat_lt
  refine UInt32.toNat_inj.1 ?_
  have h₁ : a.toNat <<< 24 ||| b.toNat <<< 16 = (a.toNat * 256 + b.toNat) <<< 16 := by
    rw [← Nat.shiftLeft_add_eq_or_of_lt (by simp only [Nat.shiftLeft_eq]; omega)]
    simp only [Nat.shiftLeft_eq]
    omega
  have h₂ : (a.toNat * 256 + b.toNat) <<< 16 ||| c.toNat <<< 8
      = ((a.toNat * 256 + b.toNat) * 256 + c.toNat) <<< 8 := by
    rw [← Nat.shiftLeft_add_eq_or_of_lt (by simp only [Nat.shiftLeft_eq]; omega)]
    simp only [Nat.shiftLeft_eq]
    omega
  have h₃ : ((a.toNat * 256 + b.toNat) * 256 + c.toNat) <<< 8 ||| d.toNat
      = ((a.toNat * 256 + b.toNat) * 256 + c.toNat) * 256 + d.toNat := by
    rw [← Nat.shiftLeft_add_eq_or_of_lt hd, Nat.shiftLeft_eq]
  have hmod : ∀ n k, n * 2 ^ k < 2 ^ 32 → n <<< k % 2 ^ 32 = n <<< k := by
    intro n k h
    rw [Nat.shiftLeft_eq, Nat.mod_eq_of_lt h]
  simp only [UInt32.toNat_or, UInt32.toNat_shiftLeft, UInt8.toNat_toUInt32, UInt32.reduceToNat,
    Nat.reduceMod]
  rw [hmod _ 24 (by omega), hmod _ 16 (by omega), hmod _ 8 (by omega), h₁, h₂, h₃,
    UInt32.toNat_ofNat',
    Nat.mod_eq_of_lt (by simp only [ofBE, List.foldl_cons, List.foldl_nil]; omega)]
  simp only [ofBE, List.foldl_cons, List.foldl_nil]
  omega

/-- The word sequence of a block in the buffer. -/
theorem sha1W_eq (buffer : CharArray) : sha1W buffer = SHA1.schedule (buffer.read 0 64) := by
  have hwords : ((List.range 16).map fun t =>
      ((buffer (t * 4)).toUInt32 <<< 24) ||| ((buffer (t * 4 + 1)).toUInt32 <<< 16) |||
        ((buffer (t * 4 + 2)).toUInt32 <<< 8) ||| (buffer (t * 4 + 3)).toUInt32)
      = words ofBE (buffer.read 0 64) := by
    refine List.map_congr_left fun t ht => ?_
    rw [List.mem_range] at ht
    rw [shiftLeft_or_eq, CharArray.take_drop_read _ _ (by omega), Nat.zero_add, Nat.mul_comm]
    rfl
  rw [sha1W, SHA1.schedule, hwords, List.range'_eq_map_range, List.foldl_map]
  refine List.foldl_ext _ _ _ fun W n _ => ?_
  rw [sha1CircularShift_eq, show 16 + n - 3 = n + 13 by omega, show 16 + n - 8 = n + 8 by omega,
    show 16 + n - 14 = n + 2 by omega, show 16 + n - 16 = n by omega]

/-- A loop is the steps of a group of SHA-1, whose function and constant are those of the loop. -/
theorem sha1_foldl_sha1Loop {f : UInt32 → UInt32 → UInt32 → UInt32} {K : UInt32} {l : List ℕ}
    {g : ℕ} (hl : ∀ t ∈ l, t / 20 = g) (hf : f = SHA1.f g) (hK : K = SHA1.K g) (W : List UInt32)
    (r : Registers) :
    (l.foldl (sha1Loop f K W) r).sha1 = l.foldl (SHA1.step W) r.sha1 := by
  induction l generalizing r with
  | nil => rfl
  | cons t l ih =>
      have hstep : (sha1Loop f K W r t).sha1 = SHA1.step W r.sha1 t := by
        simp only [sha1Loop, and_ffffffff, sha1CircularShift_eq, SHA1.step,
          hl t List.mem_cons_self, hf, hK]
        rfl
      rw [List.foldl_cons, List.foldl_cons, ← hstep]
      exact ih (fun u hu => hl u (List.mem_cons_of_mem t hu)) _

/-- **The four loops are the compression of SHA-1.** -/
theorem sha1_sha1ProcessMessageBlock (ctx : DigestState) :
    (sha1ProcessMessageBlock ctx).registers.sha1
      = SHA1.compress ctx.registers.sha1 (ctx.buffer.read 0 64) := by
  have hrange : List.range 80
      = List.range' 0 20 ++ List.range' 20 20 ++ List.range' 40 20 ++ List.range' 60 20 := by decide
  have hgroup : ∀ g t, t ∈ List.range' (20 * g) 20 → t / 20 = g := by
    intro g t ht
    rw [List.mem_range'_1] at ht
    omega
  simp only [SHA1.compress, hrange, List.foldl_append]
  rw [← sha1W_eq, ← sha1_foldl_sha1Loop (hgroup 0) rfl rfl,
    ← sha1_foldl_sha1Loop (hgroup 1) rfl rfl,
    ← sha1_foldl_sha1Loop (hgroup 2) rfl rfl, ← sha1_foldl_sha1Loop (hgroup 3) rfl rfl]
  simp only [sha1ProcessMessageBlock, and_ffffffff]
  rfl

end AwsS3fs
