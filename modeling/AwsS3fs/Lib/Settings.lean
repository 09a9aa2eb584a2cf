/-
**Settings that are made one after the other.**

A list of settings is read from its front, and a field of the result is what the last setting for it
says, or what it was before if there is none.  Settings of different kinds do not disturb each
other, so it does not matter how they are mixed, as long as those of one kind keep their order.

Main definitions:

* `Settings.last` — what the last setting for a field says;
* `Settings.Mixed` — two lists with the same settings of every kind, in the same order.

Main results:

* `Settings.last_cons` — **a setting counts unless a later one does**;
* `Settings.last_eq_of_mixed` — the order of settings of different kinds does not matter;
* `Settings.ite_or_eq_iff` — a setting that only counts on a condition.
-/

import Mathlib.Data.List.Basic

set_option relaxedAutoImplicit false
set_option autoImplicit false

namespace Settings

variable {α β κ : Type*}

/-- What the last setting for a field says. -/
def last (f : α → Option β) (settings : List α) : Option β := (settings.filterMap f).getLast?

@[simp]
theorem last_nil (f : α → Option β) : last f [] = none := rfl

/-- A setting counts unless a later one does. -/
theorem last_cons (f : α → Option β) (a : α) (settings : List α) :
    last f (a :: settings) = (last f settings).or (f a) := by
  cases ha : f a with
  | none => rw [last, List.filterMap_cons_none ha, Option.or_none, last]
  | some b =>
      rw [last, last, List.filterMap_cons_some ha, List.getLast?_cons]
      cases (settings.filterMap f).getLast? with
      | none => rfl
      | some c => rfl

/-- There is a last setting if there is one at all. -/
theorem isSome_last_iff {f : α → Option β} {settings : List α} :
    (last f settings).isSome = true ↔ ∃ a ∈ settings, (f a).isSome = true := by
  rw [last, Option.isSome_iff_ne_none, Ne, List.getLast?_eq_none_iff, List.filterMap_eq_nil_iff]
  simp [Option.isSome_iff_ne_none]

/-- Two lists with the same settings of every kind, in the same order. -/
def Mixed [DecidableEq κ] (kind : α → κ) (settings settings' : List α) : Prop :=
  ∀ k, settings.filter (fun a => kind a = k) = settings'.filter fun a => kind a = k

theorem mem_iff_of_mixed [DecidableEq κ] {kind : α → κ} {settings settings' : List α}
    (h : Mixed kind settings settings') (a : α) : a ∈ settings ↔ a ∈ settings' := by
  have hmem : ∀ l : List α, a ∈ l ↔ a ∈ l.filter fun b => kind b = kind a := by simp
  rw [hmem settings, hmem settings', h]

/-- **The order of settings of different kinds does not matter.** -/
theorem last_eq_of_mixed [DecidableEq κ] {kind : α → κ} {settings settings' : List α}
    (h : Mixed kind settings settings') {f : α → Option β} {k : κ}
    (hf : ∀ a, (f a).isSome = true → kind a = k) : last f settings = last f settings' := by
  have hfilter : ∀ l : List α, l.filterMap f = (l.filter fun a => kind a = k).filterMap f := by
    intro l
    induction l with
    | nil => rfl
    | cons a l ih =>
        by_cases ha : kind a = k
        · rw [List.filter_cons_of_pos (by simpa using ha), List.filterMap_cons, List.filterMap_cons,
            ih]
        · have hnone : f a = none := by
            cases hfa : f a with
            | none => rfl
            | some b => exact absurd (hf a (by rw [hfa]; rfl)) ha
          rw [List.filter_cons_of_neg (by simpa using ha), List.filterMap_cons_none hnone, ih]
  rw [last, last, hfilter settings, hfilter settings', h k]

/-- **A setting that only counts on a condition** counts as it should if the condition is met, or if
it says what would be taken anyway. -/
theorem ite_or_eq_iff {p : Prop} [Decidable p] {a : Option β} {b : β} :
    (if p then a else none).or (some b) = a.or (some b) ↔ p ∨ ∀ b', a = some b' → b' = b := by
  by_cases hp : p
  · simp [hp]
  · cases a with
    | none => simp
    | some b' => simp [hp, eq_comm]

end Settings
