/-
**Aggregates of SQL.**

A column holds integers and `NULL`.  `COUNT` counts what is not `NULL`, `SUM` adds it and is `NULL`
if there is nothing to add, and a term with `NULL` in it is `NULL`.  A program that reads the result
as an `int` gets its lower 32 bits, and `0` for `NULL`.

Main definitions:

* `Aggregates.Value` — an integer or `NULL`;
* `Aggregates.count`, `Aggregates.sum`, `Aggregates.add`, `Aggregates.sub` — aggregates and terms;
* `Aggregates.columnInt` — a result that is read as an `int`.

Main results:

* `Aggregates.count_map_some`, `Aggregates.sum_map_some` — aggregates of columns without `NULL`.
-/

import AwsS3fs.Lib.Bytes
import Mathlib.Algebra.BigOperators.Group.List.Basic

set_option relaxedAutoImplicit false
set_option autoImplicit false

namespace Aggregates

open CLib

/-- An integer, or `NULL`. -/
abbrev Value := Option ℤ

/-- `COUNT`. -/
def count (column : List Value) : Value := some (column.countP (·.isSome))

/-- `SUM`. -/
def sum (column : List Value) : Value :=
  if column.all (·.isNone) then none else some (column.filterMap id).sum

/-- `a + b`. -/
def add (a b : Value) : Value := a.bind fun x => b.map (x + ·)

/-- `a - b`. -/
def sub (a b : Value) : Value := a.bind fun x => b.map (x - ·)

/-- `sqlite3_column_int`. -/
def columnInt (a : Value) : ℤ := wrapInt (a.getD 0)

variable {ρ : Type*}

theorem count_map_some (rows : List ρ) (f : ρ → ℤ) :
    count (rows.map fun r => some (f r)) = some (rows.length : ℤ) := by
  rw [count, List.countP_map, List.countP_eq_length.2]
  intro r _
  rfl

theorem sum_map_some {rows : List ρ} (hne : rows ≠ []) (f : ρ → ℤ) :
    sum (rows.map fun r => some (f r)) = some (rows.map f).sum := by
  obtain ⟨r, rows, rfl⟩ := List.exists_cons_of_ne_nil hne
  rw [sum, if_neg]
  · rw [List.filterMap_map]
    congr 2
    exact congrFun List.filterMap_eq_map (r :: rows)
  · simp

end Aggregates
