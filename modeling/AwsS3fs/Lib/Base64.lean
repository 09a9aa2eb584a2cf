/-
**Base 64 notation.**

Base 64 writes three octets as four digits: the 24 bits of the octets are read as four numbers of
six bits, most significant bits first, and each number has a digit of its own.  A string whose
length is not a multiple of three ends in a shorter group, which is filled up with zero bits; the
digits that would only show those bits are replaced by a padding character.

The notation is stated over arithmetic, so that it does not depend on the masks and shifts of any
program that computes it.

Main definitions:

* `Base64.alphabet`, `Base64.digit` — the 64 digits;
* `Base64.encodeGroup` — four digits for three octets;
* `Base64.encode` — **the notation** of a string of octets;
* `Base64.groups`, `Base64.rest` — the complete groups of a string, and what is left.

Main results:

* `Base64.sextets_eq` — the six bits of each digit, octet by octet;
* `Base64.flatten_groups`, `Base64.rest_cases` — a string is its groups and what is left, at most
  two octets;
* `Base64.encode_eq` — **the notation group by group**.
-/

import AwsS3fs.Lib.Bytes

set_option relaxedAutoImplicit false
set_option autoImplicit false

open CLib

namespace Base64

/-! ### Digits -/

/-- The 64 digits. -/
def alphabet : Bytes :=
  ascii "ABCDEFGHIJKLMNOPQRSTUVWXYZabcdefghijklmnopqrstuvwxyz0123456789+/"

/-- The padding character. -/
def pad : UInt8 := 61

/-- The digit for a number below 64. -/
def digit (v : ℕ) : UInt8 := alphabet.getD v pad

/-- The four numbers of six bits in three octets. -/
def sextets (a b c : UInt8) : List ℕ :=
  let n := a.toNat * 65536 + b.toNat * 256 + c.toNat
  [n / 262144, n / 4096 % 64, n / 64 % 64, n % 64]

theorem sextets_eq (a b c : UInt8) :
    sextets a b c = [a.toNat / 4, a.toNat % 4 * 16 + b.toNat / 16,
      b.toNat % 16 * 4 + c.toNat / 64, c.toNat % 64] := by
  have ha := a.toNat_lt
  have hb := b.toNat_lt
  have hc := c.toNat_lt
  simp only [sextets, List.cons.injEq, and_true]
  omega

/-- Four digits for three octets. -/
def encodeGroup (a b c : UInt8) : Bytes := (sextets a b c).map digit

theorem exists_of_mem_encodeGroup {a b c ch : UInt8} (h : ch ∈ encodeGroup a b c) :
    ∃ v < 64, ch = digit v := by
  obtain ⟨v, hv, rfl⟩ := List.mem_map.1 h
  have ha := a.toNat_lt
  have hb := b.toNat_lt
  have hc := c.toNat_lt
  rw [sextets_eq] at hv
  simp only [List.mem_cons, List.not_mem_nil, or_false] at hv
  exact ⟨v, by omega, rfl⟩

@[simp] theorem length_encodeGroup (a b c : UInt8) : (encodeGroup a b c).length = 4 := rfl

/-! ### Strings -/

/-- **The notation** of a string of octets. -/
def encode : Bytes → Bytes
  | a :: b :: c :: t => encodeGroup a b c ++ encode t
  | [a, b] => (encodeGroup a b 0).take 3 ++ [pad]
  | [a] => (encodeGroup a 0 0).take 2 ++ [pad, pad]
  | [] => []

/-- The complete groups of a string. -/
def groups : Bytes → List (UInt8 × UInt8 × UInt8)
  | a :: b :: c :: t => (a, b, c) :: groups t
  | _ => []

/-- The octets after the complete groups. -/
def rest : Bytes → Bytes
  | _ :: _ :: _ :: t => rest t
  | x => x

/-- The octets of a group. -/
def octets (g : UInt8 × UInt8 × UInt8) : Bytes := [g.1, g.2.1, g.2.2]

/-- The digits of a group. -/
def digits (g : UInt8 × UInt8 × UInt8) : Bytes := encodeGroup g.1 g.2.1 g.2.2

@[simp] theorem length_octets (g : UInt8 × UInt8 × UInt8) : (octets g).length = 3 := rfl

@[simp] theorem length_digits (g : UInt8 × UInt8 × UInt8) : (digits g).length = 4 := rfl

/-- A string is its groups and what is left. -/
theorem flatten_groups (x : Bytes) : ((groups x).map octets).flatten ++ rest x = x := by
  induction x using groups.induct with
  | case1 a b c t ih => simpa [groups, rest, octets] using ih
  | case2 x hx => rw [groups, rest] <;> simp_all

/-- **The notation group by group.** -/
theorem encode_eq (x : Bytes) :
    encode x = ((groups x).map digits).flatten ++ encode (rest x) := by
  induction x using groups.induct with
  | case1 a b c t ih => rw [encode, groups, rest, ih]; simp [digits]
  | case2 x hx => rw [groups, rest] <;> simp_all

/-- What is left is empty, one octet or two. -/
theorem rest_cases (x : Bytes) :
    rest x = [] ∨ (∃ a, rest x = [a]) ∨ ∃ a b, rest x = [a, b] := by
  induction x using rest.induct with
  | case1 a b c t ih => exact ih
  | case2 x hx =>
      match x with
      | [] => exact .inl rfl
      | [a] => exact .inr (.inl ⟨a, rfl⟩)
      | [a, b] => exact .inr (.inr ⟨a, b, rfl⟩)
      | a :: b :: c :: t => exact (hx a b c t rfl).elim

theorem length_flatten_octets (gs : List (UInt8 × UInt8 × UInt8)) :
    ((gs.map octets).flatten).length = 3 * gs.length := by
  induction gs with
  | nil => rfl
  | cons g gs ih =>
      rw [List.map_cons, List.flatten_cons, List.length_append, ih, length_octets, List.length_cons]
      ring

/-- A string of three octets for each group, and at most two more. -/
theorem length_eq (x : Bytes) : x.length = 3 * (groups x).length + (rest x).length := by
  have h := congrArg List.length (flatten_groups x)
  rw [List.length_append, length_flatten_octets] at h
  exact h.symm

theorem length_rest_lt (x : Bytes) : (rest x).length < 3 := by
  obtain h | ⟨a, h⟩ | ⟨a, b, h⟩ := rest_cases x <;> simp [h]

/-- There is nothing left of a string whose length is a multiple of three. -/
theorem rest_eq_nil_iff (x : Bytes) : rest x = [] ↔ x.length % 3 = 0 := by
  have heq := length_eq x
  have hlt := length_rest_lt x
  rw [← List.length_eq_zero_iff]
  omega

end Base64
