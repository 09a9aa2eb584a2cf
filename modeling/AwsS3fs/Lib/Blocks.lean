/-
**Data that is handled in blocks of one size.**

Two patterns recur wherever a stream of bytes is turned into something else.  On the way out, the
results are collected in a buffer of a fixed size, and the buffer is moved to its destination when
the next result might not fit.  On the way in, a stream is cut into blocks of one size, and each
block changes a state; the bytes after the last complete block have to wait.

This module states both patterns for arbitrary elements, with the facts that any such program
rests on: nothing is lost in a buffer, what it still holds depends only on the number of results,
and a stream may be cut at the end of any block.

Main definitions:

* `Blocks.Buffer`, `Blocks.Buffer.push` — an output that is collected in a buffer;
* `Blocks.Buffer.content` — everything that was pushed into it;
* `Blocks.absorb` — the state after the complete blocks of a stream.

Main results:

* `Blocks.Buffer.content_foldl_push` — **nothing is lost**;
* `Blocks.Buffer.length_held_foldl_push` — **what is still held** after blocks of one size;
* `Blocks.absorb_append` — **a stream can be cut between blocks**.
-/

import Mathlib.Data.List.Basic
import Mathlib.Data.List.Induction
import Mathlib.Data.Nat.Init
import Mathlib.Tactic.Ring

set_option relaxedAutoImplicit false
set_option autoImplicit false

namespace Blocks

variable {α : Type*}

/-! ### An output buffer -/

/-- An output that is collected in a buffer before it is moved to its destination. -/
structure Buffer (α : Type*) where
  /-- What has been moved to the destination. -/
  flushed : List α
  /-- What is still in the buffer. -/
  held : List α

namespace Buffer

/-- The empty output. -/
def empty : Buffer α := ⟨[], []⟩

/-- Everything that was written, moved or not. -/
def content (b : Buffer α) : List α := b.flushed ++ b.held

/-- One result is written, and a buffer that reaches `limit` is moved to the destination. -/
def push (limit : ℕ) (b : Buffer α) (block : List α) : Buffer α :=
  if limit ≤ b.held.length + block.length then ⟨b.flushed ++ (b.held ++ block), []⟩
  else ⟨b.flushed, b.held ++ block⟩

@[simp] theorem content_empty : (empty : Buffer α).content = [] := rfl

@[simp] theorem content_push (limit : ℕ) (b : Buffer α) (block : List α) :
    (push limit b block).content = b.content ++ block := by
  unfold push content
  split <;> simp

/-- **Nothing is lost.** -/
theorem content_foldl_push (limit : ℕ) (b : Buffer α) (blocks : List (List α)) :
    (blocks.foldl (push limit) b).content = b.content ++ blocks.flatten := by
  induction blocks generalizing b with
  | nil => simp
  | cons block blocks ih => rw [List.foldl_cons, ih, content_push, List.flatten_cons,
      List.append_assoc]

/-- **What is still held** after results of `k` elements each, when `m` of them reach the
limit. -/
theorem length_held_foldl_push {limit k m : ℕ} (hm : 0 < m) (hlimit : limit ≤ k * m)
    (hbelow : ∀ j < m, k * j < limit) {blocks : List (List α)}
    (hblocks : ∀ block ∈ blocks, block.length = k) :
    (blocks.foldl (push limit) empty).held.length = k * (blocks.length % m) := by
  induction blocks using List.reverseRecOn with
  | nil => simp [empty]
  | append_singleton blocks block ih =>
      have hheld := ih fun c hc => hblocks c (by simp [hc])
      have hblock : block.length = k := hblocks block (by simp)
      have hlt := Nat.mod_lt blocks.length hm
      have hsum : k * (blocks.length % m) + k = k * (blocks.length % m + 1) := by ring
      rw [List.foldl_append, List.foldl_cons, List.foldl_nil, push, hheld, hblock, hsum,
        List.length_append, List.length_singleton]
      by_cases hfull : blocks.length % m + 1 = m
      · -- the buffer reaches the limit with this result
        rw [if_pos (by rw [hfull]; exact hlimit)]
        have hmod : (blocks.length + 1) % m = 0 := by
          rw [← Nat.mod_add_mod, hfull, Nat.mod_self]
        simp [hmod]
      · have hmod : (blocks.length + 1) % m = blocks.length % m + 1 := by
          rw [← Nat.mod_add_mod]
          exact Nat.mod_eq_of_lt (by omega)
        have hroom := hbelow (blocks.length % m + 1) (by omega)
        rw [if_neg (by omega), hmod, List.length_append, hheld, hblock, hsum]

end Buffer

/-! ### A stream that is cut into blocks -/

section Absorb

variable {σ : Type*} (step : σ → List α → σ) (n : ℕ)

/-- The state after the complete blocks of `n` elements of a stream. -/
def absorb (s : σ) (xs : List α) : σ :=
  (List.range (xs.length / n)).foldl (fun s i => step s ((xs.drop (n * i)).take n)) s

variable {n}

/-- A stream that is shorter than a block changes nothing. -/
theorem absorb_of_lt (s : σ) {xs : List α} (h : xs.length < n) : absorb step n s xs = s := by
  simp [absorb, Nat.div_eq_of_lt h]

/-- The first block of a stream. -/
theorem absorb_block_append (hn : 0 < n) (s : σ) {block : List α} (hblock : block.length = n)
    (xs : List α) : absorb step n s (block ++ xs) = absorb step n (step s block) xs := by
  have hcount : (block ++ xs).length / n = xs.length / n + 1 := by
    rw [List.length_append, hblock, Nat.add_comm, Nat.add_div_right _ hn]
  have hstep : ∀ i, ((block ++ xs).drop (n * (i + 1))).take n = (xs.drop (n * i)).take n := by
    intro i
    have hle : block.length ≤ n * (i + 1) := by
      rw [hblock]
      exact Nat.le_mul_of_pos_right n (Nat.succ_pos i)
    rw [List.drop_append, List.drop_eq_nil_of_le hle, List.nil_append, hblock, Nat.mul_succ,
      Nat.add_sub_cancel]
  rw [absorb, hcount, List.range_succ_eq_map, List.foldl_cons, List.foldl_map, absorb]
  have hfirst : ((block ++ xs).drop (n * 0)).take n = block := by
    rw [Nat.mul_zero, List.drop_zero, List.take_left' hblock]
  rw [hfirst]
  refine List.foldl_ext _ _ _ fun s' i _ => ?_
  exact congrArg (step s') (hstep i)

/-- A stream of exactly one block. -/
theorem absorb_block (hn : 0 < n) (s : σ) {block : List α} (hblock : block.length = n) :
    absorb step n s block = step s block := by
  have hnil : absorb step n (step s block) [] = step s block := absorb_of_lt step _ hn
  have h := absorb_block_append step hn s hblock []
  rwa [List.append_nil, hnil] at h

/-- **A stream can be cut between blocks.** -/
theorem absorb_append (hn : 0 < n) (s : σ) {xs : List α} (hxs : n ∣ xs.length) (ys : List α) :
    absorb step n s (xs ++ ys) = absorb step n (absorb step n s xs) ys := by
  obtain ⟨k, hk⟩ := hxs
  induction k generalizing s xs with
  | zero =>
      obtain rfl : xs = [] := List.length_eq_zero_iff.1 (by simpa using hk)
      have hnil : absorb step n s [] = s := absorb_of_lt step _ hn
      rw [List.nil_append, hnil]
  | succ k ih =>
      have hle : n ≤ xs.length := hk ▸ Nat.le_mul_of_pos_right n (Nat.succ_pos k)
      have hblock : (xs.take n).length = n := by rw [List.length_take]; omega
      have hrest : (xs.drop n).length = n * k := by
        rw [List.length_drop, hk, Nat.mul_succ, Nat.add_sub_cancel]
      have hsplit : xs = xs.take n ++ xs.drop n := (List.take_append_drop n xs).symm
      rw [hsplit, List.append_assoc, absorb_block_append step hn s hblock,
        absorb_block_append step hn s hblock, ih _ hrest]

end Absorb

end Blocks
