/-
**Bytes the way a C program reads them.**

A C routine that parses a string walks a pointer over memory and stops at the first byte that a
test rejects; it has no idea where the string's buffer ends.  This module is the small part of the
C language and library that such routines rest on, over lists of bytes: the character classes of
the C locale, arithmetic of the type `int`, the decimal notation of `printf`, character arrays on
the stack, and loops that scan memory.

Readable memory is a finite list, and a scan that reaches its end without meeting a byte that
stops it has no result: that is the access a real program would not survive.

Main definitions:

* `CLib.isdigit`, `CLib.isalnum`, `CLib.isspace`, `CLib.ispunct` — the classes of the C locale;
* `CLib.wrapInt` — the value of type `int` an integer is truncated to;
* `CLib.formatInt`, `CLib.padInt`, `CLib.decimalValue` — writing and reading decimal notation;
* `CLib.atoi`, `CLib.atoll` — the value of a string of digits in the types of C;
* `CLib.strtoll` — the number that any string begins with;
* `CLib.scan`, `CLib.scanLimit` — the number of bytes a loop `while( p( *s ) ) s++` steps over;
* `CLib.memcpy` — copying into allocated memory;
* `CLib.CharArray`, `CLib.CharArray.str` — an array of characters and the string it holds;
* `CLib.BoundedString`, `CLib.BoundedString.strcat` — a string with the size of its array.

Main results:

* `CLib.scan_eq_some_iff` — **what a scan finds**: a run of accepted bytes and the byte that
  stopped it;
* `CLib.decimalValue_formatInt`, `CLib.strtoll_formatInt` — reading undoes writing;
* `CLib.toNat_and_shiftRight`, `CLib.toNat_shiftLeft_or` — masks and shifts as arithmetic;
* `CLib.lines_injective` — the lines of a text;
* `CLib.CharArray.str_write` — the string held by an array that was just written;
* `CLib.CharArray.read_write` — the elements of an array that was just written.
-/

import Mathlib.Data.List.Basic
import Mathlib.Data.List.Induction
import Mathlib.Data.List.TakeWhile
import Mathlib.Data.Int.Init
import Mathlib.Tactic.Ring

set_option relaxedAutoImplicit false
set_option autoImplicit false

namespace CLib

/-- A string of bytes. -/
abbrev Bytes := List UInt8

/-- The bytes of a string literal. -/
def ascii (s : String) : Bytes := s.toList.map Char.toUInt8

/-! ### Character classes of the C locale -/

/-- `isdigit`. -/
def isdigit (ch : UInt8) : Bool := 48 ≤ ch && ch ≤ 57

/-- `isalnum`. -/
def isalnum (ch : UInt8) : Bool :=
  isdigit ch || (65 ≤ ch && ch ≤ 90) || (97 ≤ ch && ch ≤ 122)

/-- `isalpha`. -/
def isalpha (ch : UInt8) : Bool := (65 ≤ ch && ch ≤ 90) || (97 ≤ ch && ch ≤ 122)

/-- `isspace`. -/
def isspace (ch : UInt8) : Bool := (9 ≤ ch && ch ≤ 13) || ch == 32

/-- `ispunct`: a printing character that is neither a space nor alphanumeric. -/
def ispunct (ch : UInt8) : Bool := 33 ≤ ch && ch ≤ 126 && !isalnum ch

/-- A colon or white space. -/
def isSeparator (ch : UInt8) : Bool := ch == 58 || isspace ch

/-- `tolower`. -/
def tolower (ch : UInt8) : UInt8 := if 65 ≤ ch && ch ≤ 90 then ch + 32 else ch

@[simp]
theorem tolower_tolower (ch : UInt8) : tolower (tolower ch) = tolower ch := by
  by_cases h : 65 ≤ ch && ch ≤ 90
  · have hlower : ¬ ch + 32 ≤ 90 := by
      simp only [Bool.and_eq_true, decide_eq_true_eq, UInt8.le_iff_toNat_le, UInt8.reduceToNat] at h
      rw [UInt8.le_iff_toNat_le, UInt8.toNat_add]
      simp only [UInt8.reduceToNat]
      omega
    rw [tolower, tolower, if_pos h, if_neg (by simp [hlower])]
  · rw [tolower, tolower, if_neg h, if_neg h]

theorem isalnum_of_isdigit {ch : UInt8} (h : isdigit ch = true) : isalnum ch = true := by
  simp [isalnum, h]

@[simp] theorem isalnum_zero : isalnum 0 = false := by decide

theorem ne_zero_of_isalnum {ch : UInt8} (h : isalnum ch = true) : ch ≠ 0 := by
  rintro rfl
  simp at h

/-- A space or a punctuation character is not alphanumeric. -/
theorem isalnum_of_isspace_or_ispunct {ch : UInt8} (h : (isspace ch || ispunct ch) = true) :
    isalnum ch = false := by
  rcases Bool.or_eq_true_iff.1 h with h | h
  · -- the white space characters lie below the digits
    simp only [isspace, Bool.or_eq_true, Bool.and_eq_true, decide_eq_true_eq, beq_iff_eq,
      UInt8.le_iff_toNat_le, ← UInt8.toNat_inj, UInt8.reduceToNat] at h
    simp only [isalnum, isdigit, Bool.or_eq_false_iff, Bool.and_eq_false_imp, decide_eq_true_eq,
      decide_eq_false_iff_not, UInt8.le_iff_toNat_le, UInt8.reduceToNat]
    omega
  · simp only [ispunct, Bool.and_eq_true, Bool.not_eq_true'] at h
    exact h.2

theorem isspace_of_isdigit {ch : UInt8} (h : isdigit ch = true) : isspace ch = false := by
  by_contra hspace
  rw [Bool.not_eq_false] at hspace
  have hnot := isalnum_of_isspace_or_ispunct (by rw [hspace, Bool.true_or])
  rw [isalnum_of_isdigit h] at hnot
  cases hnot

/-! ### The type `int` -/

/-- The value of type `int` that an integer is truncated to. -/
def wrapInt (x : ℤ) : ℤ := Int.bmod x (2 ^ 32)

/-- Truncation does not change a value that fits. -/
theorem wrapInt_of_lt {x : ℤ} (h₀ : 0 ≤ x) (h₁ : x < 2 ^ 31) : wrapInt x = x :=
  Int.bmod_eq_of_le (by omega) (by omega)

/-! ### Decimal notation -/

/-- `printf( "%d" )`. -/
def formatInt (n : ℤ) : Bytes :=
  if n < 0 then 45 :: (Nat.toDigits 10 n.natAbs).map Char.toUInt8
  else (Nat.toDigits 10 n.natAbs).map Char.toUInt8

/-- `printf( "%*d" )`: decimal notation, with spaces before it up to a width. -/
def padInt (width : ℕ) (n : ℤ) : Bytes :=
  List.replicate (width - (formatInt n).length) 32 ++ formatInt n

/-- The number written by a string of digits. -/
def decimalValue (ds : Bytes) : ℕ := ds.foldl (fun v ch => v * 10 + (ch.toNat - 48)) 0

/-- `atoll` of a string of digits.  A number that is too large becomes the largest one. -/
def atoll (ds : Bytes) : ℤ := min (decimalValue ds) (2 ^ 63 - 1)

/-- `atoi` of a string of digits, a `long` that is truncated. -/
def atoi (ds : Bytes) : ℤ := wrapInt (atoll ds)

/-- `strtoll`: white space, a sign and digits, and then anything.  Without digits it is `0`. -/
def strtoll (s : Bytes) : ℤ :=
  match s.dropWhile isspace with
  | [] => 0
  | c :: t =>
      if c = 45 then max (-decimalValue (t.takeWhile isdigit)) (-2 ^ 63)
      else if c = 43 then atoll (t.takeWhile isdigit)
      else atoll ((c :: t).takeWhile isdigit)

theorem formatInt_natCast (n : ℕ) :
    formatInt n = (Nat.toDigits 10 n).map Char.toUInt8 := by
  simp [formatInt]

theorem toUInt8_toNat_of_isDigit {c : Char} (h : c.isDigit = true) :
    c.toUInt8.toNat = c.toNat := by
  simp only [Char.isDigit, Bool.and_eq_true, decide_eq_true_eq, UInt32.le_iff_toNat_le] at h
  simp only [Char.toUInt8, UInt32.toNat_toUInt8, Char.toNat]
  have h57 : c.val.toNat ≤ 57 := h.2
  omega

theorem isdigit_toUInt8 {c : Char} (h : c.isDigit = true) : isdigit c.toUInt8 = true := by
  have hc := toUInt8_toNat_of_isDigit h
  simp only [Char.isDigit, Bool.and_eq_true, decide_eq_true_eq, UInt32.le_iff_toNat_le] at h
  simp only [isdigit, Bool.and_eq_true, decide_eq_true_eq, UInt8.le_iff_toNat_le, hc]
  exact h

/-- Decimal notation of a natural number consists of digits. -/
theorem isdigit_of_mem_formatInt {n : ℕ} {ch : UInt8} (h : ch ∈ formatInt n) :
    isdigit ch = true := by
  rw [formatInt_natCast] at h
  obtain ⟨c, hc, rfl⟩ := List.mem_map.1 h
  exact isdigit_toUInt8 (Nat.isDigit_of_mem_toDigits (by omega) (by omega) hc)

theorem formatInt_ne_nil (n : ℕ) : formatInt n ≠ [] := by
  rw [formatInt_natCast, Ne, List.map_eq_nil_iff]
  exact Nat.toDigits_ne_nil

/-- A number below `10 ^ k` takes at most `k` digits. -/
theorem length_formatInt_le {n k : ℕ} (hk : 0 < k) (h : n < 10 ^ k) :
    (formatInt n).length ≤ k := by
  rw [formatInt_natCast, List.length_map]
  exact (Nat.length_toDigits_le_iff (by omega) hk).2 h

/-- **Reading undoes writing.** -/
theorem decimalValue_formatInt (n : ℕ) : decimalValue (formatInt n) = n := by
  have key : ∀ (cs : List Char) (v : ℕ), (∀ c ∈ cs, c.isDigit = true) →
      (cs.map Char.toUInt8).foldl (fun v ch => v * 10 + (ch.toNat - 48)) v
        = Nat.ofDigitChars 10 cs v := by
    intro cs
    induction cs with
    | nil => intro v _; simp
    | cons c cs ih =>
        intro v hcs
        rw [List.map_cons, List.foldl_cons, Nat.ofDigitChars_cons,
          toUInt8_toNat_of_isDigit (hcs c (by simp)), Nat.mul_comm v 10]
        exact ih _ fun d hd => hcs d (by simp [hd])
  rw [formatInt_natCast, decimalValue,
    key _ _ fun c hc => Nat.isDigit_of_mem_toDigits (by omega) (by omega) hc]
  exact Nat.ofDigitChars_ten_toDigits

/-- `k` digits write a number below `10 ^ k`. -/
theorem decimalValue_lt {ds : Bytes} (h : ∀ d ∈ ds, isdigit d = true) :
    decimalValue ds < 10 ^ ds.length := by
  induction ds using List.reverseRecOn with
  | nil => simp [decimalValue]
  | append_singleton ds d ih =>
      have hd : d.toNat ≤ 57 := by
        have := h d (by simp)
        simp only [isdigit, Bool.and_eq_true, decide_eq_true_eq, UInt8.le_iff_toNat_le] at this
        exact this.2
      have hds := ih fun e he => h e (by simp [he])
      have hval : decimalValue (ds ++ [d]) = decimalValue ds * 10 + (d.toNat - 48) := by
        simp [decimalValue]
      rw [hval, List.length_append, List.length_singleton, pow_succ]
      omega

/-- The number of digits of a number. -/
theorem length_formatInt {n k : ℕ} (hle : 10 ^ k ≤ n) (hlt : n < 10 ^ (k + 1)) :
    (formatInt n).length = k + 1 := by
  refine le_antisymm (length_formatInt_le (Nat.succ_pos k) hlt) ?_
  have hvalue := decimalValue_lt fun _ hd => isdigit_of_mem_formatInt (n := n) hd
  rw [decimalValue_formatInt] at hvalue
  exact (Nat.pow_lt_pow_iff_right (by omega)).1 (hle.trans_lt hvalue)

/-- A string of at most nine digits is a number of type `int`. -/
theorem atoi_eq_decimalValue {ds : Bytes} (h : ∀ d ∈ ds, isdigit d = true)
    (hlen : ds.length ≤ 9) : atoi ds = decimalValue ds := by
  have hlt := decimalValue_lt h
  have hpow : 10 ^ ds.length ≤ 10 ^ 9 := Nat.pow_le_pow_right (by omega) hlen
  have hmin : atoll ds = decimalValue ds := min_eq_left (by omega)
  rw [atoi, hmin, wrapInt_of_lt (by omega) (by omega)]

/-- Decimal notation has a sign or consists of digits. -/
theorem formatInt_cases (n : ℤ) :
    ∃ ds : Bytes, (∀ d ∈ ds, isdigit d = true) ∧ (formatInt n = ds ∨ formatInt n = 45 :: ds) := by
  refine ⟨(Nat.toDigits 10 n.natAbs).map Char.toUInt8, ?_, ?_⟩
  · intro d hd
    obtain ⟨c, hc, rfl⟩ := List.mem_map.1 hd
    exact isdigit_toUInt8 (Nat.isDigit_of_mem_toDigits (by omega) (by omega) hc)
  · unfold formatInt
    split
    · exact .inr rfl
    · exact .inl rfl

/-- The digits of an absolute value. -/
theorem formatInt_eq (n : ℤ) :
    formatInt n = if n < 0 then 45 :: formatInt n.natAbs else formatInt n.natAbs := by
  rw [formatInt_natCast, formatInt]

/-- **A number in 64 bits is read as it was written.** -/
theorem strtoll_formatInt {n : ℤ} (hle : -2 ^ 63 ≤ n) (hlt : n < 2 ^ 63) :
    strtoll (formatInt n) = n := by
  have htake : (formatInt n.natAbs).takeWhile isdigit = formatInt n.natAbs :=
    List.takeWhile_eq_self_iff.2 fun d hd => isdigit_of_mem_formatInt hd
  rw [formatInt_eq]
  split
  · have hspace : (45 :: formatInt n.natAbs).dropWhile isspace = 45 :: formatInt n.natAbs := rfl
    rw [strtoll, hspace]
    simp only [if_pos, htake, decimalValue_formatInt]
    omega
  · obtain ⟨c, t, hct⟩ := List.exists_cons_of_ne_nil (formatInt_ne_nil n.natAbs)
    have hc : isdigit c = true := isdigit_of_mem_formatInt (n := n.natAbs) (hct ▸ List.mem_cons_self)
    have hspace : (formatInt n.natAbs).dropWhile isspace = c :: t := by
      rw [hct, List.dropWhile_cons_of_neg (by simp [isspace_of_isdigit hc])]
    have hminus : c ≠ 45 := by rintro rfl; cases hc
    have hplus : c ≠ 43 := by rintro rfl; cases hc
    rw [strtoll, hspace]
    simp only [if_neg hminus, if_neg hplus, ← hct, htake, atoll, decimalValue_formatInt]
    omega

/-! ### Fields of bits -/

/-- A mask of the low bits is a remainder. -/
theorem toNat_and_mask {mask : UInt8} {j : ℕ} (hmask : mask.toNat = 2 ^ j - 1) (x : UInt8) :
    (x &&& mask).toNat = x.toNat % 2 ^ j := by
  rw [UInt8.toNat_and, hmask, Nat.and_two_pow_sub_one_eq_mod]

/-- A mask and a shift to the right pick a field of bits. -/
theorem toNat_and_shiftRight {mask k : UInt8} {j : ℕ} (hk : k.toNat < 8)
    (hmask : mask.toNat >>> k.toNat = 2 ^ j - 1) (x : UInt8) :
    ((x &&& mask) >>> k).toNat = x.toNat / 2 ^ k.toNat % 2 ^ j := by
  rw [UInt8.toNat_shiftRight, UInt8.toNat_and, Nat.mod_eq_of_lt hk, Nat.shiftRight_and_distrib,
    hmask, Nat.and_two_pow_sub_one_eq_mod, Nat.shiftRight_eq_div_pow]

/-- A shift to the left makes room for another field. -/
theorem toNat_shiftLeft_or {x y k : UInt8} (hk : k.toNat < 8)
    (hx : x.toNat * 2 ^ k.toNat < 2 ^ 8) (hy : y.toNat < 2 ^ k.toNat) :
    ((x <<< k) ||| y).toNat = x.toNat * 2 ^ k.toNat + y.toNat := by
  rw [UInt8.toNat_or, UInt8.toNat_shiftLeft, Nat.mod_eq_of_lt hk, Nat.shiftLeft_eq,
    Nat.mod_eq_of_lt hx, ← Nat.shiftLeft_eq, ← Nat.shiftLeft_add_eq_or_of_lt hy, Nat.shiftLeft_eq]

/-! ### Scanning memory -/

section Scan

variable {α : Type*}

/-- The loop `while( p( *s ) ) s++`: the number of elements it steps over, and nothing when it
runs off the end of the readable memory. -/
def scan (p : α → Bool) : List α → Option ℕ
  | [] => none
  | ch :: m => if p ch then (scan p m).map (· + 1) else some 0

/-- **What a scan finds**: a run of accepted elements and the element that stopped it. -/
theorem scan_eq_some_iff {p : α → Bool} {m : List α} {n : ℕ} :
    scan p m = some n ↔
      ∃ a c r, m = a ++ c :: r ∧ a.length = n ∧ (∀ x ∈ a, p x = true) ∧ p c = false := by
  induction m generalizing n with
  | nil => simp [scan]
  | cons ch m ih =>
      cases hp : p ch with
      | false =>
          simp only [scan, hp, Bool.false_eq_true, if_false, Option.some_inj]
          constructor
          · rintro rfl
            exact ⟨[], ch, m, by simp [hp]⟩
          · rintro ⟨a, c, r, hm, hn, ha, -⟩
            cases a with
            | nil => simpa using hn
            | cons b a =>
                obtain ⟨rfl, -⟩ := List.cons.inj hm
                simp [hp] at ha
      | true =>
          simp only [scan, hp, if_true, Option.map_eq_some_iff]
          constructor
          · rintro ⟨k, hk, rfl⟩
            obtain ⟨a, c, r, rfl, rfl, ha, hc⟩ := ih.1 hk
            exact ⟨ch :: a, c, r, by simp, by simp, by simpa [hp] using ha, hc⟩
          · rintro ⟨a, c, r, hm, rfl, ha, hc⟩
            cases a with
            | nil =>
                obtain ⟨rfl, -⟩ := List.cons.inj hm
                simp [hp] at hc
            | cons b a =>
                obtain ⟨-, rfl⟩ := List.cons.inj hm
                exact ⟨a.length, ih.2 ⟨a, c, r, rfl, rfl, fun x hx => ha x (by simp [hx]), hc⟩,
                  by simp⟩

/-- A scan stops at the first element that is not accepted. -/
theorem scan_append {p : α → Bool} {a : List α} {c : α} (r : List α)
    (ha : ∀ x ∈ a, p x = true) (hc : p c = false) : scan p (a ++ c :: r) = some a.length :=
  scan_eq_some_iff.2 ⟨a, c, r, rfl, rfl, ha, hc⟩

/-- The loop `while( i < limit && p( s[ i ] ) ) i++`: the number of elements it steps over, and
nothing when it leaves the readable memory. -/
def scanLimit (p : α → Bool) : ℕ → List α → Option ℕ
  | 0, _ => some 0
  | _ + 1, [] => none
  | limit + 1, ch :: m => if p ch then (scanLimit p limit m).map (· + 1) else some 0

/-- A scan stops at the first element that is not accepted, if that is in front of its limit. -/
theorem scanLimit_append {p : α → Bool} {a : List α} {c : α} (r : List α)
    (ha : ∀ x ∈ a, p x = true) (hc : p c = false) {limit : ℕ} (hlimit : a.length < limit) :
    scanLimit p limit (a ++ c :: r) = some a.length := by
  induction a generalizing limit with
  | nil =>
      obtain ⟨k, rfl⟩ : ∃ k, limit = k + 1 := ⟨limit - 1, by simp at hlimit; omega⟩
      simp [scanLimit, hc]
  | cons ch a ih =>
      obtain ⟨k, rfl⟩ : ∃ k, limit = k + 1 := ⟨limit - 1, by simp at hlimit; omega⟩
      rw [List.cons_append, scanLimit, if_pos (ha ch List.mem_cons_self),
        ih (fun x hx => ha x (List.mem_cons_of_mem _ hx)) (by simpa using hlimit)]
      rfl

/-- There is one way to split a list at the first element that a test rejects. -/
theorem append_cons_inj {p : α → Bool} {a b x y : List α} {c d : α} (ha : ∀ e ∈ a, p e = true)
    (hb : ∀ e ∈ b, p e = true) (hc : p c = false) (hd : p d = false)
    (h : a ++ c :: x = b ++ d :: y) : a = b ∧ c = d ∧ x = y := by
  have htake : ∀ {a x : List α} {c : α}, (∀ e ∈ a, p e = true) → p c = false →
      (a ++ c :: x).takeWhile p = a := by
    intro a x c ha hc
    rw [List.takeWhile_append_of_pos ha, List.takeWhile_cons_of_neg (by simp [hc]), List.append_nil]
  obtain rfl : a = b := by rw [← htake (x := x) ha hc, h, htake hb hd]
  have htail := List.append_cancel_left h
  exact ⟨rfl, (List.cons.inj htail).1, (List.cons.inj htail).2⟩

/-- What is left behind a run of accepted elements does not go on with it. -/
theorem not_of_mem_head?_dropWhile {p : α → Bool} {m : List α} {c : α}
    (h : c ∈ (m.dropWhile p).head?) : p c = false := by
  have hnot := List.head?_dropWhile_not p m
  rwa [Option.mem_def.1 h] at hnot

theorem not_of_dropWhile_eq_cons {p : α → Bool} {m rest : List α} {c : α}
    (h : m.dropWhile p = c :: rest) : p c = false :=
  not_of_mem_head?_dropWhile (by rw [h]; rfl)

/-- Memory that holds an element that is not accepted can be split at the first one. -/
theorem exists_split {p : α → Bool} {m : List α} {x : α} (hx : x ∈ m) (hp : p x = false) :
    ∃ a c r, m = a ++ c :: r ∧ (∀ y ∈ a, p y = true) ∧ p c = false := by
  induction m with
  | nil => simp at hx
  | cons ch m ih =>
      cases hch : p ch with
      | false => exact ⟨[], ch, m, rfl, by simp, hch⟩
      | true =>
          rcases List.mem_cons.1 hx with rfl | hx
          · rw [hch] at hp; exact absurd hp (by simp)
          · obtain ⟨a, c, r, rfl, ha, hc⟩ := ih hx
            exact ⟨ch :: a, c, r, rfl, by simpa [hch] using ha, hc⟩

end Scan

/-! ### Lines -/

/-- **Lines can be told apart** if there are no line ends inside. -/
theorem lines_injective {a b : List Bytes} (ha : ∀ line ∈ a, 10 ∉ line) (hb : ∀ line ∈ b, 10 ∉ line)
    (h : (a.flatMap fun line => line ++ [10]) = b.flatMap fun line => line ++ [10]) : a = b := by
  have hline : ∀ {line : Bytes}, 10 ∉ line → ∀ ch ∈ line, (ch != 10) = true :=
    fun hnot ch hch => bne_iff_ne.2 fun heq => hnot (heq ▸ hch)
  induction a generalizing b with
  | nil =>
      cases b with
      | nil => rfl
      | cons line b => simp at h
  | cons line a ih =>
      cases b with
      | nil => simp at h
      | cons line' b =>
          simp only [List.flatMap_cons, List.append_assoc, List.singleton_append] at h
          obtain ⟨rfl, -, hrest⟩ := append_cons_inj (hline (ha _ List.mem_cons_self))
            (hline (hb _ List.mem_cons_self)) (by decide) (by decide) h
          rw [ih (fun l hl => ha l (List.mem_cons_of_mem _ hl))
            (fun l hl => hb l (List.mem_cons_of_mem _ hl)) hrest]

/-! ### Blocks of memory -/

/-- `memcpy( &dest[ o ], src, length )`. -/
def memcpy (dest : Bytes) (o : ℕ) (src : Bytes) : Bytes :=
  dest.take o ++ src ++ dest.drop (o + src.length)

/-- Copying to the end of what was copied before. -/
theorem memcpy_append (a tail src : Bytes) :
    memcpy (a ++ tail) a.length src = a ++ src ++ tail.drop src.length := by
  rw [memcpy, List.take_left, ← List.drop_drop, List.drop_left]

/-! ### Character arrays -/

/-- An array of characters on the stack: the value of every element, initialised or not. -/
abbrev CharArray := ℕ → UInt8

namespace CharArray

/-- Writing the characters of `w` from index `o` on. -/
def write (buf : CharArray) (o : ℕ) : Bytes → CharArray
  | [] => buf
  | ch :: w => write (Function.update buf o ch) (o + 1) w

/-- The string held by the first `size` elements, up to the terminating `'\0'`. -/
def str (buf : CharArray) : ℕ → Bytes
  | 0 => []
  | size + 1 => if buf 0 = 0 then [] else buf 0 :: str (fun i => buf (i + 1)) size

theorem write_of_lt (buf : CharArray) (o : ℕ) (w : Bytes) {j : ℕ} (hj : j < o) :
    write buf o w j = buf j := by
  induction w generalizing buf o with
  | nil => rfl
  | cons ch w ih =>
      rw [write, ih _ _ (by omega)]
      exact Function.update_of_ne (by omega) _ _

theorem write_of_ge (buf : CharArray) (o : ℕ) (w : Bytes) {j : ℕ} (hj : o + w.length ≤ j) :
    write buf o w j = buf j := by
  induction w generalizing buf o with
  | nil => rfl
  | cons ch w ih =>
      rw [List.length_cons] at hj
      rw [write, ih _ _ (by omega)]
      exact Function.update_of_ne (by omega) _ _

/-- `n` elements from index `o` on. -/
def read (buf : CharArray) (o n : ℕ) : Bytes := (List.range n).map fun i => buf (o + i)

@[simp] theorem length_read (buf : CharArray) (o n : ℕ) : (read buf o n).length = n := by
  simp [read]

theorem write_get (buf : CharArray) (o : ℕ) (w : Bytes) {l : ℕ} (hl : l < w.length) :
    write buf o w (o + l) = w[l] := by
  induction w generalizing buf o l with
  | nil => simp at hl
  | cons ch w ih =>
      cases l with
      | zero => rw [write, write_of_lt _ _ _ (by omega)]; simp
      | succ l =>
          have h : o + (l + 1) = o + 1 + l := by omega
          rw [write, h, ih _ _ (by simpa using hl)]
          simp

/-- The elements of an array that was just written. -/
theorem write_apply (buf : CharArray) (o : ℕ) (w : Bytes) (j : ℕ) :
    write buf o w j = if j < o then buf j else w[j - o]?.getD (buf j) := by
  split
  · rename_i hj; exact write_of_lt buf o w hj
  · rename_i hj
    by_cases hlen : j - o < w.length
    · obtain ⟨l, rfl⟩ : ∃ l, j = o + l := ⟨j - o, by omega⟩
      rw [Nat.add_sub_cancel_left] at hlen ⊢
      rw [write_get _ _ _ hlen, List.getElem?_eq_getElem hlen, Option.getD_some]
    · rw [write_of_ge _ _ _ (by omega), List.getElem?_eq_none (by omega), Option.getD_none]

/-- Reading back what was written. -/
theorem read_write (buf : CharArray) (o : ℕ) (w : Bytes) : read (write buf o w) o w.length = w := by
  refine List.ext_getElem (length_read _ _ _) fun i h₁ h₂ => ?_
  simp only [read, List.getElem_map, List.getElem_range]
  exact write_get buf o w h₂

/-- What lies before a write is not changed by it. -/
theorem read_write_of_le (buf : CharArray) {o n : ℕ} (w : Bytes) {p : ℕ} (h : o + n ≤ p) :
    read (write buf p w) o n = read buf o n :=
  List.map_congr_left fun i hi => write_of_lt buf p w (by rw [List.mem_range] at hi; omega)

/-- What lies behind a write is not changed by it. -/
theorem read_write_of_ge (buf : CharArray) {o p : ℕ} (w : Bytes) (h : o + w.length ≤ p) (n : ℕ) :
    read (write buf o w) p n = read buf p n :=
  List.map_congr_left fun _ _ => write_of_ge buf o w (by omega)

theorem read_add (buf : CharArray) (o m n : ℕ) :
    read buf o (m + n) = read buf o m ++ read buf (o + m) n := by
  simp only [read, List.range_add, List.map_append, List.map_map]
  congr 1
  exact List.map_congr_left fun i _ => by rw [Function.comp, Nat.add_assoc]

/-- What was written behind some elements is read after them. -/
theorem read_write_after (buf : CharArray) (o n : ℕ) (w : Bytes) :
    read (write buf (o + n) w) o (n + w.length) = read buf o n ++ w := by
  rw [read_add, read_write_of_le _ _ le_rfl, read_write]

theorem read_succ (buf : CharArray) (o n : ℕ) :
    read buf o (n + 1) = buf o :: read buf (o + 1) n := by
  rw [Nat.add_comm, read_add]
  rfl

/-- Some of the elements that were read. -/
theorem take_drop_read (buf : CharArray) (o : ℕ) {i k n : ℕ} (h : i + k ≤ n) :
    ((read buf o n).drop i).take k = read buf (o + i) k := by
  obtain ⟨m, rfl⟩ := Nat.exists_eq_add_of_le h
  rw [Nat.add_assoc, read_add, read_add, List.drop_left' (length_read _ _ _),
    List.take_left' (length_read _ _ _)]

/-- Writing one string after another is writing their concatenation. -/
theorem write_append (buf : CharArray) (o : ℕ) (v w : Bytes) :
    write buf o (v ++ w) = write (write buf o v) (o + v.length) w := by
  induction v generalizing buf o with
  | nil => rfl
  | cons ch v ih =>
      rw [List.cons_append, write, write, ih, List.length_cons]
      congr 1
      omega

/-- The string held by an array whose elements are those of `w` and then a `'\0'`. -/
theorem str_eq_of_get {buf : CharArray} {w : Bytes} {size : ℕ} (hw : ∀ ch ∈ w, ch ≠ 0)
    (hget : ∀ l, (h : l < w.length) → buf l = w[l]) (hend : buf w.length = 0)
    (hsize : w.length < size) : str buf size = w := by
  induction w generalizing buf size with
  | nil =>
      obtain ⟨n, rfl⟩ : ∃ n, size = n + 1 := ⟨size - 1, by simp at hsize; omega⟩
      have h0 : buf 0 = 0 := hend
      simp [str, h0]
  | cons ch w ih =>
      obtain ⟨n, rfl⟩ : ∃ n, size = n + 1 := ⟨size - 1, by simp at hsize; omega⟩
      have h0 : buf 0 = ch := hget 0 (by simp)
      have hch : ch ≠ 0 := hw ch (by simp)
      rw [str, h0, if_neg hch]
      congr 1
      refine ih (fun d hd => hw d (by simp [hd])) (fun l hl => ?_) hend (by simpa using hsize)
      exact hget (l + 1) (by simpa using hl)

/-- The string held by an array whose elements are those of `w`, without a `'\0'` among them. -/
theorem str_full_of_get {buf : CharArray} {w : Bytes} (hw : ∀ ch ∈ w, ch ≠ 0)
    (hget : ∀ l, (h : l < w.length) → buf l = w[l]) : str buf w.length = w := by
  induction w generalizing buf with
  | nil => rfl
  | cons ch w ih =>
      have h0 : buf 0 = ch := hget 0 (by simp)
      rw [List.length_cons, str, h0, if_neg (hw ch (by simp))]
      congr 1
      exact ih (fun d hd => hw d (by simp [hd])) fun l hl => hget (l + 1) (by simpa using hl)

/-- **The string held by an array that was just written** at its start, with its terminator. -/
theorem str_write (buf : CharArray) {w : Bytes} {size : ℕ} (hw : ∀ ch ∈ w, ch ≠ 0)
    (hsize : w.length < size) : str (write buf 0 (w ++ [0])) size = w := by
  refine str_eq_of_get hw (fun l hl => ?_) ?_ hsize
  · have := write_get buf 0 (w ++ [0]) (l := l) (by simp; omega)
    simpa [List.getElem_append_left hl] using this
  · have := write_get buf 0 (w ++ [0]) (l := w.length) (by simp)
    rw [List.getElem_concat_length rfl, Nat.zero_add] at this
    exact this

end CharArray

/-! ### Strings in arrays of a fixed size -/

/-- The string in an array of `size` characters, which has room for its terminator. -/
structure BoundedString (size : ℕ) where
  text : Bytes
  fits : text.length < size
deriving DecidableEq

namespace BoundedString

variable {size : ℕ}

/-- The empty string. -/
def empty (h : 0 < size) : BoundedString size := ⟨[], h⟩

/-- `strcat`, and `sprintf` to the end of a string: nothing if it would write beyond the array. -/
def strcat (dest : BoundedString size) (src : Bytes) : Option (BoundedString size) :=
  if h : (dest.text ++ src).length < size then some ⟨dest.text ++ src, h⟩ else none

/-- What a string is after an addition that fits. -/
theorem strcat_of_lt {dest : BoundedString size} {src : Bytes}
    (h : (dest.text ++ src).length < size) : dest.strcat src = some ⟨dest.text ++ src, h⟩ :=
  dif_pos h

theorem strcat_of_le {dest : BoundedString size} {src : Bytes}
    (h : size ≤ (dest.text ++ src).length) : dest.strcat src = none :=
  dif_neg (Nat.not_lt.2 h)

/-- Two additions, one after the other. -/
theorem strcat_strcat (dest : BoundedString size) (a b : Bytes) :
    (dest.strcat a).bind (·.strcat b) = dest.strcat (a ++ b) := by
  rcases Nat.lt_or_ge (dest.text ++ a).length size with hlt | hge
  · rw [strcat_of_lt hlt, Option.bind_some, strcat, strcat]
    simp only [List.append_assoc]
  · have hboth : size ≤ (dest.text ++ (a ++ b)).length := by
      rw [← List.append_assoc, List.length_append]
      omega
    rw [strcat_of_le hge, strcat_of_le hboth]
    rfl

end BoundedString

end CLib
