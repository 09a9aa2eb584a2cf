/-
**The completion of an upload.**

`Query_AllPartsUploaded` (`filecachedb.c`) asks for one number, the parts of a file less those that
are completed, and those that are in progress added, and takes the upload for done if it is `0`.  No
part takes away what another one adds, but the number is read as an `int`.

Main definitions:

* `AwsS3fs.joinParts`, `AwsS3fs.allPartsComplete` — the rows and the result of the statement;
* `AwsS3fs.queryAllPartsUploaded` — `Query_AllPartsUploaded`;
* `AwsS3fs.outstanding` — what is left of an upload;
* `AwsS3fs.CompletionDetected` — the answer is right.

Main results:

* `AwsS3fs.columnInt_allPartsComplete` — the number is what is left, as an `int`;
* `AwsS3fs.outstanding_eq_zero_iff` — nothing is left if every part is done;
* `AwsS3fs.completionDetected_iff` — **exactly when the completion is detected**.
-/

import AwsS3fs.CacheDatabase
import AwsS3fs.Lib.Aggregates

set_option relaxedAutoImplicit false
set_option autoImplicit false

namespace AwsS3fs

open CLib Aggregates

/-! ### The statement -/

/-- The rows of `transferparts` and `transfers` that the statement joins. -/
def joinParts (transfers : List TransferRow) (transferparts : List PartRow) (file : ℤ) :
    List (PartRow × TransferRow) :=
  transferparts.flatMap fun p =>
    (transfers.filter fun t => p.transfer = t.id ∧ t.file = file).map (p, ·)

/-- The value of a flag. -/
def flag (b : Bool) : ℤ := if b then 1 else 0

/-- `COUNT( part ) - SUM( completed ) + SUM( inprogress )`. -/
def allPartsComplete (rows : List (PartRow × TransferRow)) : Value :=
  add
    (sub (count (rows.map fun r => some r.1.part))
      (sum (rows.map fun r => some (flag r.1.completed))))
    (sum (rows.map fun r => some (flag r.1.inprogress)))

/-- `Query_AllPartsUploaded`. -/
def queryAllPartsUploaded (transfers : List TransferRow) (transferparts : List PartRow)
    (file : ℤ) : Bool :=
  let partCount := columnInt (allPartsComplete (joinParts transfers transferparts file))
  partCount = 0

/-! ### What should be detected -/

/-- What is left of an upload: the parts that are not completed, and those that are in progress. -/
def outstanding (rows : List (PartRow × TransferRow)) : ℕ :=
  rows.countP (!·.1.completed) + rows.countP (·.1.inprogress)

/-- **The completion is detected**: the answer is yes exactly if every part that belongs to a
transfer of the file is completed and not in progress. -/
def CompletionDetected (transfers : List TransferRow) (transferparts : List PartRow)
    (file : ℤ) : Prop :=
  queryAllPartsUploaded transfers transferparts file = true ↔
    ∀ p ∈ transferparts, (∃ t ∈ transfers, t.id = p.transfer ∧ t.file = file) →
      p.completed = true ∧ p.inprogress = false

/-! ### What the number is -/

section Number

variable (rows : List (PartRow × TransferRow))

/-- The terms of the parts do not cancel. -/
theorem outstanding_eq_sum :
    (outstanding rows : ℤ) = rows.length - (rows.map fun r => flag r.1.completed).sum +
      (rows.map fun r => flag r.1.inprogress).sum := by
  induction rows with
  | nil => rfl
  | cons r rows ih =>
      rw [outstanding] at ih ⊢
      rw [List.countP_cons, List.countP_cons, List.map_cons, List.map_cons, List.sum_cons,
        List.sum_cons, List.length_cons]
      cases r.1.completed <;> cases r.1.inprogress <;> simp [flag] at ih ⊢ <;> omega

/-- **The number is what is left**, as an `int`. -/
theorem columnInt_allPartsComplete :
    columnInt (allPartsComplete rows) = wrapInt (outstanding rows) := by
  by_cases hne : rows = []
  · rw [hne]
    rfl
  · rw [allPartsComplete, count_map_some, sum_map_some hne, sum_map_some hne, outstanding_eq_sum]
    rfl

/-- Nothing is left if every part is done. -/
theorem outstanding_eq_zero_iff :
    outstanding rows = 0 ↔ ∀ r ∈ rows, r.1.completed = true ∧ r.1.inprogress = false := by
  rw [outstanding, Nat.add_eq_zero_iff, List.countP_eq_zero, List.countP_eq_zero]
  constructor
  · rintro ⟨hcompleted, hprogress⟩ r hr
    exact ⟨by simpa using hcompleted r hr, by simpa using hprogress r hr⟩
  · intro h
    refine ⟨fun r hr => ?_, fun r hr => ?_⟩
    · simp [(h r hr).1]
    · simp [(h r hr).2]

/-- A part counts twice at most. -/
theorem outstanding_le : outstanding rows ≤ 2 * rows.length := by
  have hcompleted := List.countP_le_length (p := (!·.1.completed)) (l := rows)
  have hprogress := List.countP_le_length (p := (·.1.inprogress)) (l := rows)
  rw [outstanding]
  omega

end Number

variable {transfers : List TransferRow} {transferparts : List PartRow} {file : ℤ}

/-- The rows that are joined are the parts of the transfers of the file. -/
theorem forall_joinParts_iff {P : PartRow → Prop} :
    (∀ r ∈ joinParts transfers transferparts file, P r.1) ↔
      ∀ p ∈ transferparts, (∃ t ∈ transfers, t.id = p.transfer ∧ t.file = file) → P p := by
  simp only [joinParts, List.mem_flatMap, List.mem_map, List.mem_filter, decide_eq_true_eq]
  constructor
  · rintro h p hp ⟨t, ht, hid, hfile⟩
    exact h (p, t) ⟨p, hp, t, ⟨ht, hid.symm, hfile⟩, rfl⟩
  · rintro h r ⟨p, hp, t, ⟨ht, hid, hfile⟩, rfl⟩
    exact h p hp ⟨t, ht, hid.symm, hfile⟩

/-- The answer, in terms of what is left. -/
theorem queryAllPartsUploaded_iff :
    queryAllPartsUploaded transfers transferparts file = true ↔
      outstanding (joinParts transfers transferparts file) % 2 ^ 32 = 0 := by
  rw [queryAllPartsUploaded, decide_eq_true_iff, columnInt_allPartsComplete, wrapInt, Int.bmod_def]
  omega

/-- The answer is right unless the number that is left is taken for `0`. -/
theorem completionDetected_iff_not :
    CompletionDetected transfers transferparts file ↔
      ¬ (0 < outstanding (joinParts transfers transferparts file) ∧
        outstanding (joinParts transfers transferparts file) % 2 ^ 32 = 0) := by
  rw [CompletionDetected, queryAllPartsUploaded_iff, ← forall_joinParts_iff,
    ← outstanding_eq_zero_iff]
  omega

/-- **Exactly when the completion is detected**: unless a positive multiple of `2 ^ 32` is left, and
so always if there are fewer than `2 ^ 31` parts. -/
theorem completionDetected_iff (transfers : List TransferRow) (transferparts : List PartRow)
    (file : ℤ) :
    (CompletionDetected transfers transferparts file ↔
      ¬ (0 < outstanding (joinParts transfers transferparts file) ∧
        outstanding (joinParts transfers transferparts file) % 2 ^ 32 = 0)) ∧
    ((joinParts transfers transferparts file).length < 2 ^ 31 →
      CompletionDetected transfers transferparts file) := by
  refine ⟨completionDetected_iff_not, fun hlength => completionDetected_iff_not.2 ?_⟩
  have hle := outstanding_le (joinParts transfers transferparts file)
  omega

/-- An upload with some number of rows for its first part, none of them begun. -/
def manyParts (n : ℕ) : Database where
  files := [⟨7, none, false⟩]
  users := [1000]
  transfers := [⟨0, 1000, 7, none, .u, none⟩]
  transferparts := List.replicate n ⟨0, 1, false, false, none⟩
  nextId := 1
  id_unique := List.nodup_singleton _
  file_unique := List.nodup_singleton _
  id_lt t ht := by
    rw [List.mem_singleton.1 ht]
    exact Nat.one_pos
  owner_known t ht := by
    rw [List.mem_singleton.1 ht]
    exact List.mem_singleton_self _
  file_known t ht := by
    rw [List.mem_singleton.1 ht]
    exact ⟨_, List.mem_singleton_self _, rfl⟩
  transfer_known p hp := by
    rw [List.eq_of_mem_replicate hp]
    exact ⟨_, List.mem_singleton_self _, rfl⟩
  part_range p hp := by
    rw [List.eq_of_mem_replicate hp]
    decide

theorem outstanding_manyParts (n : ℕ) :
    outstanding (joinParts (manyParts n).transfers (manyParts n).transferparts 7) = n := by
  have hrows : joinParts (manyParts n).transfers (manyParts n).transferparts 7 =
      List.replicate n (⟨0, 1, false, false, none⟩, ⟨0, 1000, 7, none, .u, none⟩) := by
    simp only [manyParts, joinParts]
    induction n with
    | zero => rfl
    | succ n ih =>
        rw [List.replicate_succ, List.flatMap_cons, ih, List.replicate_succ]
        rfl
  rw [outstanding, hrows, List.countP_replicate, List.countP_replicate]
  rfl

/-- Three parts that have not been begun are noticed. -/
theorem completionDetected_manyParts :
    CompletionDetected (manyParts 3).transfers (manyParts 3).transferparts 7 :=
  (completionDetected_iff _ _ 7).2 (by decide)

/-- **An upload of which nothing is done is taken for done** if it has `2 ^ 32` rows. -/
theorem not_completionDetected_manyParts :
    ¬ ∀ (db : Database) (file : ℤ), CompletionDetected db.transfers db.transferparts file := by
  intro h
  refine completionDetected_iff_not.1 (h (manyParts (2 ^ 32)) 7) ?_
  rw [outstanding_manyParts]
  exact ⟨Nat.two_pow_pos 32, Nat.mod_self _⟩

end AwsS3fs
