/-
**Lists of threads.**

A system with any number of threads keeps them in a list: a thread that starts is appended, a thread
that takes a step is replaced in its place, and a broadcast is a map.  What such a step does is said
here for the two ways in which invariants look at the list: a test of the thread at one place, and
the number of threads that pass a test.

Main results:

* `Threads.any_set_ne`, `Threads.any_append_ne` — a step of one thread leaves the others alone;
* `Threads.countP_set_of_eq`, `Threads.countP_set_succ` — **how a step of one thread changes a
  number of threads**;
* `Threads.sum_map_set_add_one` — a step that makes a sum over the threads smaller;
* `Threads.lt_of_find?` — in an increasing list, what is found first is the least;
* `Threads.find?_key_eq_some_iff` — what is found by a key that no two elements share.
-/

import Mathlib.Algebra.GroupWithZero.Nat
import Mathlib.Algebra.Order.BigOperators.Group.List
import Mathlib.Algebra.Order.Group.Nat
import Mathlib.Data.List.Basic
import Mathlib.Data.List.Nodup
import Mathlib.Data.List.Perm.Basic

set_option relaxedAutoImplicit false
set_option autoImplicit false

namespace Threads

/-! ### The thread at one place -/

variable {α : Type*} {l : List α} {p : α → Bool} {i j : ℕ} {x y : α}

theorem any_set_self (hx : l[i]? = some x) : (l.set i y)[i]?.any p = p y := by
  rw [List.getElem?_set_self (List.getElem?_eq_some_iff.1 hx).1, Option.any_some]

theorem any_set_ne (h : j ≠ i) : (l.set i y)[j]?.any p = l[j]?.any p := by
  rw [List.getElem?_set_ne h.symm]

theorem any_append_ne (h : j ≠ l.length) : (l ++ [y])[j]?.any p = l[j]?.any p := by
  rcases Nat.lt_or_ge j l.length with hj | hj
  · rw [List.getElem?_append_left hj]
  · rw [List.getElem?_eq_none (by simp; omega), List.getElem?_eq_none (by omega)]

theorem any_map_eq {g : α → α} (h : ∀ x, p (g x) = p x) : (l.map g)[j]?.any p = l[j]?.any p := by
  rw [List.getElem?_map, Option.any_map]
  congr 1
  exact funext h

/-- Replacing an element by one that passes a test at most where the old one did. -/
theorem any_set_imp (hx : l[i]? = some x) (hp : p y = true → p x = true)
    (h : (l.set i y)[j]?.any p = true) : l[j]?.any p = true := by
  by_cases hj : j = i
  · rw [hj, any_set_self hx] at h
    rw [hj, hx, Option.any_some]
    exact hp h
  · rwa [any_set_ne hj] at h

/-- The threads after a step of one: that one, and the others. -/
theorem of_getElem?_set (h : (l.set i y)[j]? = some x) :
    j = i ∧ x = y ∨ j ≠ i ∧ l[j]? = some x := by
  by_cases hj : j = i
  · rw [hj, List.getElem?_set] at h
    split at h
    · split at h
      · exact .inl ⟨hj, (Option.some.inj h).symm⟩
      · cases h
    · rename_i hne
      exact absurd rfl hne
  · rw [List.getElem?_set_ne (Ne.symm hj)] at h
    exact .inr ⟨hj, h⟩

/-- The threads after the start of one: the others, and that one. -/
theorem of_getElem?_append (h : (l ++ [y])[j]? = some x) :
    l[j]? = some x ∨ j = l.length ∧ x = y := by
  rcases Nat.lt_or_ge j l.length with hj | hj
  · exact .inl ((List.getElem?_append_left hj).symm.trans h)
  · have h := (List.getElem?_append_right hj).symm.trans h
    rcases Nat.eq_or_lt_of_le hj with hj | hj
    · rw [← hj, Nat.sub_self] at h
      exact .inr ⟨hj.symm, (Option.some.inj h).symm⟩
    · rw [List.getElem?_eq_none (by simp; omega)] at h
      cases h

/-! ### All threads -/

/-- A step between two states of a thread that have a property leaves open which threads have it. -/
theorem forall_mem_set_iff {P : α → Prop} (hx : l[i]? = some x) (hPx : P x) (hPy : P y) :
    (∀ z ∈ l.set i y, P z) ↔ ∀ z ∈ l, P z := by
  constructor
  · intro h z hz
    obtain ⟨k, hk⟩ := List.mem_iff_getElem?.1 hz
    by_cases hki : k = i
    · rw [hki, hx, Option.some.injEq] at hk
      exact hk ▸ hPx
    · exact h z (List.mem_of_getElem? ((List.getElem?_set_ne (Ne.symm hki)).trans hk))
  · intro h z hz
    rcases List.mem_or_eq_of_mem_set hz with hz | rfl
    · exact h z hz
    · exact hPy

/-- The thread that has taken a step is among the threads. -/
theorem mem_set_self (hx : l[i]? = some x) : y ∈ l.set i y :=
  List.mem_of_getElem? (List.getElem?_set_self (List.getElem?_eq_some_iff.1 hx).1)

/-- What is selected from the threads, if the one that goes on contributes the same as before. -/
theorem filterMap_set_of_eq {β : Type*} {g : α → Option β} (hx : l[i]? = some x) (hg : g y = g x) :
    (l.set i y).filterMap g = l.filterMap g := by
  induction l generalizing i with
  | nil => cases hx
  | cons z l ih =>
      cases i with
      | zero =>
          obtain rfl : z = x := Option.some.inj hx
          rw [List.set_cons_zero, List.filterMap_cons, List.filterMap_cons, hg]
      | succ i => rw [List.set_cons_succ, List.filterMap_cons, List.filterMap_cons, ih hx]

theorem map_set_of_eq {β : Type*} {g : α → β} (hx : l[i]? = some x) (hg : g y = g x) :
    (l.set i y).map g = l.map g := by
  obtain ⟨hi, rfl⟩ := List.getElem?_eq_some_iff.1 hx
  rw [List.map_set, hg, ← List.getElem_map g (h := by simpa using hi), List.set_getElem_self]

/-! ### Numbers of threads -/

/-- A step that does not change whether the thread passes the test. -/
theorem countP_set_of_eq (hx : l[i]? = some x) (hp : p y = p x) :
    (l.set i y).countP p = l.countP p := by
  obtain ⟨hi, rfl⟩ := List.getElem?_eq_some_iff.1 hx
  rw [List.countP_set hi, hp]
  split
  · rename_i h
    have := List.countP_pos_iff.2 ⟨_, List.getElem_mem hi, h⟩
    omega
  · omega

/-- A step after which the thread does not pass the test any more. -/
theorem countP_set_succ (hx : l[i]? = some x) (hp : p x = true) (hp' : p y = false) :
    (l.set i y).countP p + 1 = l.countP p := by
  obtain ⟨hi, rfl⟩ := List.getElem?_eq_some_iff.1 hx
  have := List.countP_pos_iff.2 ⟨_, List.getElem_mem hi, hp⟩
  rw [List.countP_set hi, if_pos hp, hp']
  simp only [Bool.false_eq_true, if_false]
  omega

/-- A step after which the thread passes the test, and did not before. -/
theorem countP_set_add (hx : l[i]? = some x) (hp : p x = false) (hp' : p y = true) :
    (l.set i y).countP p = l.countP p + 1 := by
  obtain ⟨hi, rfl⟩ := List.getElem?_eq_some_iff.1 hx
  rw [List.countP_set hi, if_pos hp', hp]
  simp only [Bool.false_eq_true, if_false]
  omega

/-- A thread that is taken away. -/
theorem countP_eraseIdx (hx : l[i]? = some x) :
    (l.eraseIdx i).countP p + (if p x = true then 1 else 0) = l.countP p := by
  obtain ⟨hi, rfl⟩ := List.getElem?_eq_some_iff.1 hx
  rw [← List.countP_cons]
  exact (List.getElem_cons_eraseIdx_perm hi).countP_eq p

/-- A map that does not change whether a thread passes the test. -/
theorem countP_map_of_eq {g : α → α} (h : ∀ x, p (g x) = p x) :
    (l.map g).countP p = l.countP p := by
  rw [List.countP_map]
  exact congrArg (List.countP · l) (funext h)

/-- At most one thread passes a test, if any two that do are at the same place. -/
theorem countP_le_one
    (h : ∀ (i j : ℕ) (x y : α), l[i]? = some x → l[j]? = some y → p x = true → p y = true → i = j) :
    l.countP p ≤ 1 := by
  induction l with
  | nil => exact Nat.zero_le _
  | cons x l ih =>
      rw [List.countP_cons]
      split
      · rename_i hx
        have hzero : l.countP p = 0 := by
          rw [List.countP_eq_zero]
          intro y hy hpy
          obtain ⟨j, hj⟩ := List.mem_iff_getElem?.1 hy
          have := h 0 (j + 1) x y rfl hj hx hpy
          omega
        omega
      · refine ih fun i j x y hi hj hx hy => ?_
        have := h (i + 1) (j + 1) x y hi hj hx hy
        omega

/-- If at most one thread passes a test, two that pass it are the same. -/
theorem eq_of_countP_le_one (h : l.countP p ≤ 1) (hx : x ∈ l) (hy : y ∈ l) (hpx : p x = true)
    (hpy : p y = true) : x = y := by
  rw [List.countP_eq_length_filter] at h
  have hx := List.mem_filter.2 ⟨hx, hpx⟩
  have hy := List.mem_filter.2 ⟨hy, hpy⟩
  match l.filter p, h, hx, hy with
  | [z], _, hx, hy => rw [List.mem_singleton.1 hx, List.mem_singleton.1 hy]
  | _ :: _ :: _, h, _, _ =>
      simp only [List.length_cons] at h
      omega

/-- A step after which there is one less of what threads count. -/
theorem sum_map_set_add_one {f : α → ℕ} (hx : l[i]? = some x) (hf : f y + 1 = f x) :
    ((l.set i y).map f).sum + 1 = (l.map f).sum := by
  induction l generalizing i with
  | nil => cases hx
  | cons z l ih =>
      cases i with
      | zero =>
          obtain rfl : z = x := Option.some.inj hx
          simp only [List.set_cons_zero, List.map_cons, List.sum_cons]
          omega
      | succ i =>
          have := ih hx
          simp only [List.set_cons_succ, List.map_cons, List.sum_cons]
          omega

/-! ### The first of a list -/

/-- In an increasing list, what `find?` finds is the least. -/
theorem lt_of_find? {l : List ℕ} {p : ℕ → Bool} {a b : ℕ} (hl : l.Pairwise (· < ·))
    (ha : l.find? p = some a) (hb : b ∈ l) (hp : p b = true) (hne : b ≠ a) : a < b := by
  obtain ⟨-, front, back, rfl, hfront⟩ := List.find?_eq_some_iff_append.1 ha
  rcases List.mem_append.1 hb with hb | hb
  · have := hfront b hb
    rw [hp] at this
    cases this
  · rcases List.mem_cons.1 hb with rfl | hb
    · exact absurd rfl hne
    · exact (List.pairwise_cons.1 (List.pairwise_append.1 hl).2.1).1 b hb

/-- In a list whose elements have different keys, `find?` for a key finds the element that has
it. -/
theorem find?_key_eq_some_iff {κ : Type*} [DecidableEq κ] {f : α → κ} {k : κ}
    (hl : (l.map f).Nodup) : l.find? (fun x => f x = k) = some x ↔ x ∈ l ∧ f x = k := by
  constructor
  · intro h
    exact ⟨List.mem_of_find?_eq_some h, by simpa using List.find?_some h⟩
  · rintro ⟨hx, hkey⟩
    cases hfind : l.find? (fun x => f x = k) with
    | none => exact absurd hkey (by simpa using List.find?_eq_none.1 hfind x hx)
    | some y =>
        have hy := List.mem_of_find?_eq_some hfind
        have hykey : f y = k := by simpa using List.find?_some hfind
        rw [List.inj_on_of_nodup_map hl hy hx (hykey.trans hkey.symm)]

end Threads
