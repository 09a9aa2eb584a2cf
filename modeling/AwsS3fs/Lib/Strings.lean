/-
**Strings in memory.**

A string of C is memory: its characters, and the terminator behind them.  A program that reads it
with an index stays inside as long as the index is not negative and not behind the terminator.  What
a program should compute is more easily said of the rest of the string that an index stands for; the
program follows such a description if it stays inside and comes to the same end.

Main definitions:

* `CLib.CString` — a string without a `'\0'` among its characters;
* `CLib.load`, `CLib.store` — an element of memory, unless the index is outside;
* `CLib.stringIn` — the string that memory begins with;
* `CLib.CString.At` — the rest of the string that an index stands for;
* `CLib.CString.scanFrom` — a loop over the characters from an index on;
* `CLib.Stop`, `CLib.Follows` — a program that may leave its memory, and what it should compute.

Main results:

* `CLib.CString.At.load`, `CLib.CString.At.scanFrom` — reading the rest of a string;
* `CLib.Follows.bind` — **what follows a description step by step follows it as a whole**.
-/

import AwsS3fs.Lib.Bytes

set_option relaxedAutoImplicit false
set_option autoImplicit false

namespace CLib

/-! ### Memory -/

/-- The element of memory at an index. -/
def load (memory : Bytes) (idx : ℤ) : Option UInt8 :=
  if 0 ≤ idx then memory[idx.toNat]? else none

/-- Memory with another element at an index. -/
def store (memory : Bytes) (idx : ℤ) (ch : UInt8) : Option Bytes :=
  if 0 ≤ idx ∧ idx < memory.length then some (memory.set idx.toNat ch) else none

theorem load_natCast (memory : Bytes) (idx : ℕ) : load memory idx = memory[idx]? := by
  rw [load, if_pos (Int.natCast_nonneg idx), Int.toNat_natCast]

/-- There is no memory in front of a string. -/
theorem load_of_neg {memory : Bytes} {idx : ℤ} (h : idx < 0) : load memory idx = none :=
  if_neg (by omega)

/-- What is read is not in front of a string. -/
theorem nonneg_of_load {memory : Bytes} {idx : ℤ} {ch : UInt8} (h : load memory idx = some ch) :
    0 ≤ idx := by
  by_contra hneg
  rw [load_of_neg (by omega)] at h
  cases h

/-- The string that memory begins with. -/
def stringIn (memory : Bytes) : Bytes := memory.takeWhile (· != 0)

theorem stringIn_append {s : Bytes} (h : 0 ∉ s) (behind : Bytes) :
    stringIn (s ++ 0 :: behind) = s := by
  have hs : ∀ ch ∈ s, (ch != 0) = true := fun ch hch => bne_iff_ne.2 fun heq => h (heq ▸ hch)
  rw [stringIn, List.takeWhile_append_of_pos hs, List.takeWhile_cons_of_neg (by decide),
    List.append_nil]

/-! ### Strings -/

/-- A string: the characters in front of its terminator. -/
structure CString where
  bytes : Bytes
  noNul : 0 ∉ bytes

namespace CString

variable {string : CString} {idx : ℕ} {s : Bytes}

/-- The memory of a string. -/
def memory (string : CString) : Bytes := string.bytes ++ [0]

/-- An index stands for the rest of a string. -/
def At (string : CString) (idx : ℕ) (s : Bytes) : Prop :=
  ∃ front, string.bytes = front ++ s ∧ front.length = idx

theorem at_zero (string : CString) : string.At 0 string.bytes := ⟨[], rfl, rfl⟩

theorem At.noNul (h : string.At idx s) : 0 ∉ s := by
  obtain ⟨front, hbytes, -⟩ := h
  exact fun hmem => string.noNul (hbytes ▸ List.mem_append_right front hmem)

/-- An index moves over some of the characters. -/
theorem At.add {a : Bytes} (h : string.At idx (a ++ s)) : string.At (idx + a.length) s := by
  obtain ⟨front, hbytes, rfl⟩ := h
  exact ⟨front ++ a, by rw [hbytes, List.append_assoc], List.length_append⟩

/-- What is in memory from an index on. -/
theorem At.drop_memory (h : string.At idx s) : string.memory.drop idx = s ++ [0] := by
  obtain ⟨front, hbytes, rfl⟩ := h
  rw [memory, hbytes, List.append_assoc, List.drop_left]

/-- An element from an index on. -/
theorem At.load (h : string.At idx s) (k : ℕ) :
    load string.memory ((idx + k : ℕ) : ℤ) = (s ++ [0])[k]? := by
  rw [load_natCast, ← h.drop_memory, List.getElem?_drop]

/-- The loop `while( p( string[ idx ] ) ) idx++`: the index at which it ends. -/
def scanFrom (string : CString) (p : UInt8 → Bool) (idx : ℕ) : Option ℕ :=
  (scan p (string.memory.drop idx)).map (idx + ·)

/-- A loop goes over the characters that it accepts, if the one behind them, or else the terminator,
is not accepted. -/
theorem At.scanFrom {p : UInt8 → Bool} {a : Bytes} (h : string.At idx (a ++ s))
    (ha : ∀ ch ∈ a, p ch = true) (hs : ∀ ch ∈ (s ++ [0]).head?, p ch = false) :
    string.scanFrom p idx = some (idx + a.length) := by
  rw [CString.scanFrom, h.drop_memory, List.append_assoc]
  cases s with
  | nil => rw [List.nil_append, scan_append [] ha (hs 0 rfl)]; rfl
  | cons ch s => rw [List.cons_append, scan_append (s ++ [0]) ha (hs ch rfl)]; rfl

end CString

/-! ### Programs that may leave their memory -/

section Stop

universe u v w

variable {α γ : Type u} {β δ : Type v} {ε : Type w}

/-- Why a program ends early: it left its memory, or it returned. -/
inductive Stop (ε : Type w)
  | outside
  | returned (e : ε)
  deriving DecidableEq

/-- A program that goes on only inside its memory. -/
def inside : Option α → Except (Stop ε) α
  | none => .error .outside
  | some a => .ok a

/-- A program stays inside and comes to the same end as what it should compute. -/
def Follows (R : α → β → Prop) (x : Except (Stop ε) α) : Except ε β → Prop
  | .error e => x = .error (.returned e)
  | .ok b => ∃ a, x = .ok a ∧ R a b

theorem follows_ok {R : α → β → Prop} {a : α} {b : β} (h : R a b) :
    Follows (ε := ε) R (.ok a) (.ok b) :=
  ⟨a, rfl, h⟩

/-- What comes next follows a description if it does so behind a step that succeeds. -/
theorem Follows.bind_of_ok {R : α → β → Prop} {S : γ → δ → Prop} {x : Except (Stop ε) α}
    {y : Except ε β} {f : α → Except (Stop ε) γ} {g : β → Except ε δ} (h : Follows R x y)
    (hstep : ∀ a b, y = .ok b → R a b → Follows S (f a) (g b)) :
    Follows S (x >>= f) (y >>= g) := by
  cases y with
  | error e =>
      obtain rfl : x = .error (.returned e) := h
      rfl
  | ok b =>
      obtain ⟨a, rfl, hab⟩ := h
      exact hstep a b rfl hab

/-- **What follows a description step by step follows it as a whole.** -/
theorem Follows.bind {R : α → β → Prop} {S : γ → δ → Prop} {x : Except (Stop ε) α}
    {y : Except ε β} {f : α → Except (Stop ε) γ} {g : β → Except ε δ} (h : Follows R x y)
    (hstep : ∀ a b, R a b → Follows S (f a) (g b)) : Follows S (x >>= f) (y >>= g) :=
  h.bind_of_ok fun a b _ hab => hstep a b hab

/-- What follows a description stays inside. -/
theorem Follows.ne_outside {R : α → β → Prop} {x : Except (Stop ε) α} {y : Except ε β}
    (h : Follows R x y) : x ≠ .error .outside := by
  rintro rfl
  cases y with
  | error e => cases h
  | ok b =>
      obtain ⟨a, ha, -⟩ := h
      cases ha

/-- What follows a description has its value. -/
theorem Follows.eq_ok {x : Except (Stop ε) α} {y : Except ε α} (h : Follows (· = ·) x y) {a : α}
    (hy : y = .ok a) : x = .ok a := by
  rw [hy] at h
  obtain ⟨a', hx, rfl⟩ := h
  exact hx

/-- What follows a description has its errors. -/
theorem Follows.eq_error {R : α → β → Prop} {x : Except (Stop ε) α} {y : Except ε β}
    (h : Follows R x y) {e : ε} (hy : y = .error e) : x = .error (.returned e) := by
  rw [hy] at h
  exact h

/-- Two programs that follow the same description come to the same end. -/
theorem Follows.unique {x x' : Except (Stop ε) α} {y : Except ε α} (h : Follows (· = ·) x y)
    (h' : Follows (· = ·) x' y) : x = x' := by
  cases y with
  | error e => exact (h.eq_error rfl).trans (h'.eq_error rfl).symm
  | ok a => exact (h.eq_ok rfl).trans (h'.eq_ok rfl).symm

/-- A program follows one description only. -/
theorem Follows.eq_of_eq {x : Except (Stop ε) α} {y y' : Except ε α} (h : Follows (· = ·) x y)
    (h' : Follows (· = ·) x y') : y = y' := by
  cases y with
  | error e =>
      obtain rfl : x = .error (.returned e) := h
      cases y' with
      | error e' => exact congrArg _ (Stop.returned.inj (Except.error.inj h'))
      | ok a =>
          obtain ⟨a', ha', -⟩ := h'
          cases ha'
  | ok a =>
      obtain ⟨a', rfl, rfl⟩ := h
      cases y' with
      | error e' => cases h'
      | ok b =>
          obtain ⟨b', hb', rfl⟩ := h'
          exact congrArg _ (Except.ok.inj hb')

theorem Follows.eq_ok_iff {x : Except (Stop ε) α} {y : Except ε α} (h : Follows (· = ·) x y)
    {a : α} : x = .ok a ↔ y = .ok a := by
  constructor
  · rintro rfl
    exact h.eq_of_eq (follows_ok rfl)
  · exact h.eq_ok

end Stop

end CLib
