/-
**Escaped characters.**

A scanner that goes over a text once knows whether the next character is escaped: an escape
character is followed by an escaped one, unless it is escaped itself.  Seen from the character, it
is escaped if the run of escape characters right in front of it has an odd length.

Main definitions:

* `Escapes.after` — what the scanner knows after a text;
* `Escapes.split` — a text up to the first character that stops the scanner;
* `Escapes.Plain` — a text without a character that stops it.

Main results:

* `Escapes.after_eq_odd` — the scanner counts the run of escape characters;
* `Escapes.plain_iff_split` — the scanner goes over a plain text to its end;
* `Escapes.split_append` — **a plain text is what is split off**.
-/

import Mathlib.Algebra.Ring.Parity
import Mathlib.Data.List.DropRight
import Mathlib.Data.List.Induction

set_option relaxedAutoImplicit false
set_option autoImplicit false

namespace Escapes

variable {α : Type*} [DecidableEq α]

/-- Whether the character behind `ch` is escaped. -/
def next (c : α) (escaped : Bool) (ch : α) : Bool := if ch = c then !escaped else false

/-- Whether the character behind a text is escaped, as a scanner finds out. -/
def after (c : α) (escaped : Bool) (text : List α) : Bool := text.foldl (next c) escaped

/-- A text up to the first character that stops the scanner and is not escaped, and the rest. -/
def split (stop : α → Bool) (c : α) : Bool → List α → List α × List α
  | _, [] => ([], [])
  | escaped, ch :: text =>
      if stop ch && !escaped then ([], ch :: text)
      else
        let rest := split stop c (next c escaped ch) text
        (ch :: rest.1, rest.2)

/-- The length of the run of escape characters at the end of a text. -/
def run (c : α) (text : List α) : ℕ := (text.rtakeWhile (· = c)).length

/-- Each character that stops the scanner is escaped: there is an odd run of escape characters in
front of it. -/
def Plain (stop : α → Bool) (c : α) (text : List α) : Prop :=
  ∀ before ch behind, text = before ++ ch :: behind → stop ch = true → Odd (run c before)

/-! ### What the scanner knows -/

theorem run_concat (c : α) (text : List α) (ch : α) :
    run c (text ++ [ch]) = if ch = c then run c text + 1 else 0 := by
  rw [run, List.rtakeWhile_concat]
  by_cases h : ch = c
  · simp [h, run]
  · simp [h]

/-- **The scanner counts the run of escape characters.** -/
theorem after_eq_odd (c : α) (text : List α) :
    after c false text = decide (Odd (run c text)) := by
  induction text using List.reverseRecOn with
  | nil => simp [after, run]
  | append_singleton text ch ih =>
      rw [after] at ih
      rw [after, List.foldl_append, ih, List.foldl_cons, List.foldl_nil, next, run_concat]
      by_cases h : ch = c
      · rw [if_pos h, if_pos h, ← decide_not]
        exact decide_eq_decide.2 Nat.odd_add_one.symm
      · rw [if_neg h, if_neg h]
        simp

/-! ### Splitting -/

section Split

variable (stop : α → Bool) (c : α)

/-- The scanner goes over a text whose characters do not stop it, and on with what it knows then. -/
theorem split_of_forall {escaped : Bool} {text : List α}
    (h : ∀ before ch behind, text = before ++ ch :: behind → stop ch = true →
      after c escaped before = true) (rest : List α) :
    split stop c escaped (text ++ rest) =
      (text ++ (split stop c (after c escaped text) rest).1,
        (split stop c (after c escaped text) rest).2) := by
  induction text generalizing escaped with
  | nil => rfl
  | cons ch text ih =>
      have hgo : ¬ (stop ch && !escaped) = true := by
        intro hstop
        rw [Bool.and_eq_true, Bool.not_eq_true'] at hstop
        have hescaped : escaped = true := h [] ch text rfl hstop.1
        rw [hstop.2] at hescaped
        exact Bool.false_ne_true hescaped
      rw [List.cons_append, split, if_neg hgo, ih]
      · rfl
      · rintro before ch' behind rfl hstop
        exact h (ch :: before) ch' behind rfl hstop

/-- The scanner stops at a character that is not escaped. -/
theorem split_cons {ch : α} (h : stop ch = true) (rest : List α) :
    split stop c false (ch :: rest) = ([], ch :: rest) := by
  rw [split, h]
  rfl

variable {stop c}

/-- A text stops the scanner if one of its characters is not escaped. -/
theorem split_of_not_escaped {before : List α} {ch : α} (behind : List α) (hstop : stop ch = true)
    {escaped : Bool} (h : after c escaped before = false) :
    (split stop c escaped (before ++ ch :: behind)).2 ≠ [] := by
  induction before generalizing escaped with
  | nil =>
      obtain rfl : escaped = false := h
      rw [List.nil_append, split_cons stop c hstop]
      exact List.cons_ne_nil _ _
  | cons d before ih =>
      rw [List.cons_append, split]
      split_ifs
      · exact List.cons_ne_nil _ _
      · exact ih h

/-- The scanner knows that what would stop it is escaped. -/
theorem Plain.after {text : List α} (h : Plain stop c text) :
    ∀ before ch behind, text = before ++ ch :: behind → stop ch = true →
      after c false before = true := by
  intro before ch behind htext hstop
  rw [after_eq_odd, decide_eq_true_iff]
  exact h before ch behind htext hstop

/-- **The scanner goes over a plain text to its end.** -/
theorem plain_iff_split (text : List α) :
    Plain stop c text ↔ (split stop c false text).2 = [] := by
  constructor
  · intro h
    have hsplit := split_of_forall stop c h.after []
    rw [List.append_nil] at hsplit
    rw [hsplit]
    rfl
  · rintro h before ch behind rfl hstop
    by_contra hodd
    refine split_of_not_escaped behind hstop ?_ h
    rw [after_eq_odd, decide_eq_false_iff_not]
    exact hodd

instance (text : List α) : Decidable (Plain stop c text) :=
  decidable_of_iff _ (plain_iff_split text).symm

/-- **A plain text is what is split off** if it does not end inside an escape and what stops the
scanner, or nothing, is behind it. -/
theorem split_append {text rest : List α} (hplain : Plain stop c text) (heven : Even (run c text))
    (hrest : ∀ ch ∈ rest.head?, stop ch = true) :
    split stop c false (text ++ rest) = (text, rest) := by
  have hafter : after c false text = false := by
    rw [after_eq_odd, decide_eq_false_iff_not, Nat.not_odd_iff_even]
    exact heven
  rw [split_of_forall stop c hplain.after, hafter]
  cases rest with
  | nil => simp [split]
  | cons ch rest => rw [split_cons stop c (hrest ch rfl), List.append_nil]

end Split

end Escapes
