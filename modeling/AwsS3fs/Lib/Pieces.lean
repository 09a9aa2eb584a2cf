/-
**Data that arrives in pieces.**

A receiver that is called once for every piece of some data may put them one behind the other, or
may put a mark behind each of them.  This module compares the two.

Main definitions:

* `Pieces.marked` — the pieces with a mark behind each of them.

Main results:

* `Pieces.length_marked` — a mark takes one place;
* `Pieces.flatten_prefix_marked_iff` — **when marks do not show**: everything behind the first piece
  consists of marks.
-/

import Mathlib.Data.List.Basic

set_option relaxedAutoImplicit false
set_option autoImplicit false

namespace Pieces

variable {α : Type*} {z : α}

/-- The pieces with a mark behind each of them. -/
def marked (z : α) (pieces : List (List α)) : List α := pieces.flatMap (· ++ [z])

@[simp]
theorem marked_nil : marked z [] = [] := rfl

@[simp]
theorem marked_cons (p : List α) (pieces : List (List α)) :
    marked z (p :: pieces) = p ++ z :: marked z pieces := by
  simp [marked]

theorem marked_append (pieces pieces' : List (List α)) :
    marked z (pieces ++ pieces') = marked z pieces ++ marked z pieces' :=
  List.flatMap_append

/-- A mark takes one place. -/
theorem length_marked (pieces : List (List α)) :
    (marked z pieces).length = pieces.flatten.length + pieces.length := by
  induction pieces with
  | nil => rfl
  | cons p pieces ih =>
      rw [marked_cons, List.flatten_cons, List.length_append, List.length_cons, ih,
        List.length_append, List.length_cons]
      omega

/-- A piece that is found again behind some marks consists of marks. -/
theorem eq_mark_of_prefix {m : ℕ} (hm : 0 < m) :
    ∀ {p rest : List α}, p <+: List.replicate m z ++ (p ++ rest) → ∀ x ∈ p, x = z := by
  -- the first `m` elements are marks, and the others are elements that come earlier
  intro p rest hprefix x hx
  obtain ⟨i, hi, rfl⟩ := List.mem_iff_getElem.1 hx
  induction i using Nat.strongRecOn with
  | ind i ih =>
      have hget := hprefix.getElem hi
      by_cases him : i < m
      · rw [hget, List.getElem_append_left (by simpa using him), List.getElem_replicate]
      · have hsub : i - m < p.length := by omega
        have hearlier := ih (i - m) (by omega) hsub (List.getElem_mem _)
        rw [hget, List.getElem_append_right (by simpa using him)]
        simp only [List.length_replicate]
        rw [List.getElem_append_left hsub, hearlier]

/-- Pieces behind some marks. -/
theorem flatten_prefix_replicate_iff (pieces : List (List α)) {m : ℕ} (hm : 0 < m) :
    pieces.flatten <+: List.replicate m z ++ marked z pieces ↔ ∀ x ∈ pieces.flatten, x = z := by
  induction pieces generalizing m with
  | nil => simp
  | cons p pieces ih =>
      have hshift : List.replicate m z ++ List.replicate p.length z ++ z :: marked z pieces =
          List.replicate p.length z ++ (List.replicate (m + 1) z ++ marked z pieces) := by
        rw [List.replicate_append_replicate, Nat.add_comm m, ← List.replicate_append_replicate,
          List.replicate_succ', List.append_assoc, List.append_assoc]
        rfl
      rw [List.flatten_cons, marked_cons, ← List.append_assoc, List.forall_mem_append]
      constructor
      · intro h
        have hp := eq_mark_of_prefix hm
          ((List.prefix_append p _).trans (by rwa [List.append_assoc] at h))
        obtain hpz : p = List.replicate p.length z := List.eq_replicate_of_mem hp
        rw [hpz, hshift, List.prefix_append_right_inj, ih (Nat.succ_pos m)] at h
        exact ⟨hp, h⟩
      · rintro ⟨hp, hrest⟩
        obtain hpz : p = List.replicate p.length z := List.eq_replicate_of_mem hp
        rw [hpz, hshift, List.prefix_append_right_inj, ih (Nat.succ_pos m)]
        exact hrest

/-- **When marks do not show**: everything behind the first piece consists of marks. -/
theorem flatten_prefix_marked_iff (pieces : List (List α)) :
    pieces.flatten <+: marked z pieces ↔ ∀ x ∈ pieces.tail.flatten, x = z := by
  cases pieces with
  | nil => simp
  | cons p pieces =>
      rw [List.flatten_cons, marked_cons, List.prefix_append_right_inj]
      exact flatten_prefix_replicate_iff pieces Nat.one_pos

end Pieces
