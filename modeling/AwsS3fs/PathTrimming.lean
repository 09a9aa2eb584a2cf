/-
**Trimming paths.**

`StripTrailingSlash` and `GetParentDir` (`s3if.c`) go down from the end of a path with an index of
the type `int`, and stop when it is `0`.  In front of an empty string the index is negative when the
loop begins, and it would not come to `0` from there.

Main definitions:

* `AwsS3fs.stripTrailingSlashAt`, `AwsS3fs.getParentDirAt` — the functions, with their indices;
* `AwsS3fs.TrimsInside` — a path is trimmed inside its memory, and as it should be;
* `AwsS3fs.Trimmable` — the index begins inside, and what is behind it makes no difference.

Main results:

* `AwsS3fs.stripLoop_eq`, `AwsS3fs.parentLoop_eq` — what the loops do;
* `AwsS3fs.trimmed_eq_none_iff` — when the functions leave their string;
* `AwsS3fs.trimmed_eq_of_lt` — the functions with indices are those of the paths;
* `AwsS3fs.trimsInside_iff` — **exactly when a path is trimmed inside**.
-/

import AwsS3fs.CleanPaths
import AwsS3fs.Lib.Strings

set_option relaxedAutoImplicit false
set_option autoImplicit false

namespace AwsS3fs

open CLib

/-! ### The loops -/

/-- The loop of `StripTrailingSlash`, and the memory behind it; nothing if it leaves the memory. -/
def stripLoop (dirname : Bytes) (dirnameLength : ℤ) : Option Bytes :=
  if dirnameLength - 1 = 0 then some dirname
  else
    match _h : load dirname (dirnameLength - 1) with
    | none => none
    | some ch =>
        if ch ≠ 47 then some dirname
        else
          match store dirname (dirnameLength - 1) 0 with
          | none => none
          | some dirname => stripLoop dirname (dirnameLength - 1)
termination_by dirnameLength.toNat
decreasing_by
  have hidx := nonneg_of_load _h
  omega

/-- `StripTrailingSlash`: the string that is in the memory afterwards. -/
def stripTrailingSlashAt (filename : CString) : Option Bytes :=
  (stripLoop filename.memory (wrapInt filename.bytes.length)).map stringIn

/-- The loop of `GetParentDir`. -/
def parentLoop (path : Bytes) (endIdx : ℤ) : Option ℤ :=
  if endIdx = 0 then some 0
  else
    match h : load path endIdx with
    | none => none
    | some ch => if ch ≠ 47 then parentLoop path (endIdx - 1) else some endIdx
termination_by endIdx.toNat
decreasing_by
  have hidx := nonneg_of_load h
  omega

/-- `GetParentDir`.  The length is reduced as a number without a sign, and then truncated. -/
def getParentDirAt (path : CString) : Option Bytes := do
  let endIdx ← parentLoop path.memory (wrapInt (path.bytes.length - 1))
  return if endIdx = 0 then [47] else path.bytes.take endIdx.toNat

/-! ### What the loops do -/

section Steps

variable {memory : Bytes} {idx : ℤ}

/-- In front of the memory the loop cannot go on. -/
theorem stripLoop_of_neg (h : idx < 0) : stripLoop memory (idx + 1) = none := by
  rw [stripLoop, Int.add_sub_cancel, if_neg (by omega)]
  split
  · rfl
  · rename_i hload
    rw [load_of_neg h] at hload
    cases hload

/-- The loop stops at a character that is no slash, and goes on over one that is. -/
theorem stripLoop_of_load {ch : UInt8} (hidx : idx ≠ 0) (h : load memory idx = some ch) :
    stripLoop memory (idx + 1) =
      if ch ≠ 47 then some memory
      else (store memory idx 0).bind fun memory => stripLoop memory idx := by
  rw [stripLoop, Int.add_sub_cancel, if_neg hidx]
  split
  · rename_i hload
    rw [h] at hload
    cases hload
  · rename_i ch' hload
    obtain rfl : ch = ch' := by
      rw [h] at hload
      exact Option.some.inj hload
    cases store memory idx 0 <;> rfl

/-- In front of the memory the loop cannot go on. -/
theorem parentLoop_of_neg (h : idx < 0) : parentLoop memory idx = none := by
  rw [parentLoop, if_neg (by omega)]
  split
  · rfl
  · rename_i hload
    rw [load_of_neg h] at hload
    cases hload

/-- The loop stops at a slash, and goes on over any other character. -/
theorem parentLoop_of_load {ch : UInt8} (hidx : idx ≠ 0) (h : load memory idx = some ch) :
    parentLoop memory idx = if ch ≠ 47 then parentLoop memory (idx - 1) else some idx := by
  rw [parentLoop, if_neg hidx]
  split
  · rename_i hload
    rw [h] at hload
    cases hload
  · rename_i ch' hload
    obtain rfl : ch = ch' := by
      rw [h] at hload
      exact Option.some.inj hload
    rfl

end Steps

/-- **The loop removes the slashes at the end of a text**, and puts as many terminators there. -/
theorem stripLoop_eq (first : UInt8) (text behind : Bytes) :
    stripLoop (first :: text ++ behind) ((text.length : ℤ) + 1) =
      some (first :: text.rdropWhile (· == 47) ++
        (List.replicate (text.rtakeWhile (· == 47)).length 0 ++ behind)) := by
  induction text using List.reverseRecOn generalizing behind with
  | nil =>
      rw [stripLoop]
      simp
  | append_singleton text last ih =>
      have hload : load (first :: (text ++ [last]) ++ behind) ((text ++ [last]).length : ℤ) =
          some last := by
        rw [load_natCast]
        simp
      have hstore : store (first :: (text ++ [last]) ++ behind) ((text ++ [last]).length : ℤ) 0 =
          some (first :: text ++ (0 :: behind)) := by
        rw [store, if_pos ⟨Int.natCast_nonneg _, by simp⟩, Int.toNat_natCast]
        simp
      rw [stripLoop_of_load (by simp; omega) hload]
      by_cases hlast : last = 47
      · have hpos : (last == 47) = true := beq_iff_eq.2 hlast
        have hlength : ((text ++ [last]).length : ℤ) = text.length + 1 := by simp
        rw [if_neg (not_not.2 hlast), hstore, Option.bind_some, hlength, ih,
          List.rdropWhile_concat_pos (· == 47) text last hpos,
          List.rtakeWhile_concat_pos (· == 47) text last hpos, List.length_append,
          List.length_singleton, List.replicate_succ', List.append_assoc]
        rfl
      · rw [if_pos hlast, List.rdropWhile_concat_neg _ _ _ (by simpa using hlast),
          List.rtakeWhile_concat_neg _ _ _ (by simpa using hlast)]
        rfl

/-- The loop finds the last slash, or `0`. -/
theorem parentLoop_eq (path : CString) {endIdx : ℕ} (h : endIdx < path.bytes.length) :
    parentLoop path.memory endIdx = some (lastSlash path.bytes endIdx : ℤ) := by
  induction endIdx with
  | zero =>
      rw [parentLoop]
      rfl
  | succ endIdx ih =>
      have hload : load path.memory ((endIdx + 1 : ℕ) : ℤ) = some path.bytes[endIdx + 1] := by
        rw [load_natCast, CString.memory, List.getElem?_append_left h, List.getElem?_eq_getElem h]
      rw [parentLoop_of_load (by omega) hload, lastSlash, List.getElem?_eq_getElem h]
      by_cases hslash : path.bytes[endIdx + 1] = 47
      · rw [if_neg (not_not.2 hslash), if_pos (congrArg some hslash)]
      · rw [if_pos hslash, if_neg (mt Option.some.inj hslash), ← ih (Nat.lt_of_succ_lt h)]
        congr 1
        omega

/-! ### Trimming inside -/

/-- **A path is trimmed inside its memory**, and as it should be: `StripTrailingSlash` returns the
path without the slashes at its end, but with its first character, and `GetParentDir` of a clean
absolute path what is in front of its last slash, or that slash if it is the first character. -/
structure TrimsInside (path : CString) : Prop where
  stripped : stripTrailingSlashAt path = some (stripTrailingSlash path.bytes)
  parentInside : getParentDirAt path ≠ none
  parent : path.bytes.head? = some 47 → IsClean path.bytes → ∀ dir name,
    path.bytes = dir ++ 47 :: name → 47 ∉ name →
      getParentDirAt path = some (if dir = [] then [47] else dir)

/-- What is behind the characters that are counted makes no difference for the slashes at the end:
they are all slashes if slashes are removed in front of them, and otherwise do not end with one. -/
def SameSlashes (counted behind : Bytes) : Prop :=
  behind ≠ [] →
    if counted.getLast? = some 47 then ∀ ch ∈ behind, ch = 47 else behind.getLast? ≠ some 47

/-- **A path can be trimmed**: its length as an `int` counts some of its characters, and those that
it does not count make no difference. -/
def Trimmable (path : Bytes) : Prop :=
  ∃ first counted behind, path = first :: (counted ++ behind) ∧
    wrapInt path.length = counted.length + 1 ∧ SameSlashes counted behind ∧
    (path.head? = some 47 → IsClean path → 47 ∉ behind)

section Trim

variable {path : CString} {first : UInt8} {counted behind : Bytes}

/-- The slashes at the end are the same with what is behind them. -/
theorem rdropWhile_append_eq_iff (p : UInt8 → Bool) (text behind : Bytes) :
    text.rdropWhile p = (text ++ behind).rdropWhile p ↔ ∀ ch ∈ behind, p ch = true := by
  constructor
  · intro h ch hch
    have hsplit := List.rdropWhile_append_rtakeWhile (p := p) (l := text ++ behind)
    rw [← h] at hsplit
    conv_rhs at hsplit => rw [← List.rdropWhile_append_rtakeWhile (p := p) (l := text)]
    rw [List.append_assoc, List.append_cancel_left_eq] at hsplit
    exact List.mem_rtakeWhile_imp (hsplit ▸ List.mem_append_right _ hch)
  · exact fun h => (rdropWhile_append_of_forall h).symm

/-- Nothing is removed from a text that does not end with a slash. -/
theorem rdropWhile_slash_eq_self_iff {text : Bytes} :
    text.rdropWhile (· == 47) = text ↔ text.getLast? ≠ some 47 := by
  rw [List.rdropWhile_eq_self_iff]
  by_cases hne : text = []
  · simp [hne]
  · rw [List.getLast?_eq_some_getLast hne]
    simp [hne]

/-- What is left of the counted characters is what is left of the path. -/
theorem sameSlashes_iff (first : UInt8) (counted behind : Bytes) :
    SameSlashes counted behind ↔
      (if counted.getLast? = some 47 then first :: counted.rdropWhile (· == 47)
        else first :: (counted ++ behind)) = stripTrailingSlash (first :: (counted ++ behind)) := by
  rw [SameSlashes, stripTrailingSlash]
  by_cases hbehind : behind = []
  · refine iff_of_true (fun hne => absurd hbehind hne) ?_
    rw [hbehind, List.append_nil]
    split
    · rfl
    · rename_i hlast
      rw [rdropWhile_slash_eq_self_iff.2 hlast]
  · rw [imp_iff_right hbehind]
    split
    · rw [List.cons_inj_right, rdropWhile_append_eq_iff]
      simp only [beq_iff_eq]
    · rw [List.cons_inj_right, eq_comm, rdropWhile_slash_eq_self_iff,
        List.getLast?_append_of_ne_nil _ hbehind]

/-- The string that is left. -/
theorem stripTrailingSlashAt_eq (hbytes : path.bytes = first :: (counted ++ behind))
    (hlength : wrapInt path.bytes.length = counted.length + 1) :
    stripTrailingSlashAt path =
      some (if counted.getLast? = some 47 then first :: counted.rdropWhile (· == 47)
        else first :: (counted ++ behind)) := by
  have hnoNul : 0 ∉ first :: (counted ++ behind) := hbytes ▸ path.noNul
  have hloop := stripLoop_eq first counted (behind ++ [0])
  rw [List.cons_append, ← List.append_assoc, ← List.cons_append, ← hbytes] at hloop
  rw [stripTrailingSlashAt, hlength, CString.memory, hloop, Option.map_some, Option.some_inj]
  by_cases hlast : counted.getLast? = some 47
  · -- there is a terminator where the last of the counted characters was
    have hslashes : counted.rtakeWhile (· == 47) ≠ [] := by
      intro hnil
      have hsplit := List.rdropWhile_append_rtakeWhile (p := (· == 47)) (l := counted)
      rw [hnil, List.append_nil] at hsplit
      exact rdropWhile_slash_eq_self_iff.1 hsplit hlast
    obtain ⟨ch, slashes, hslashes⟩ := List.exists_cons_of_ne_nil hslashes
    have hfront : 0 ∉ first :: counted.rdropWhile (· == 47) := by
      refine fun hmem => hnoNul ?_
      rcases List.mem_cons.1 hmem with rfl | hmem
      · exact List.mem_cons_self
      · refine List.mem_cons_of_mem _ (List.mem_append_left _ ?_)
        exact (List.rdropWhile_prefix (· == 47) counted).subset hmem
    rw [if_pos hlast, hslashes, List.length_cons, List.replicate_succ]
    exact stringIn_append hfront _
  · have hnone : counted.rdropWhile (· == 47) = counted := rdropWhile_slash_eq_self_iff.2 hlast
    have hslashes : counted.rtakeWhile (· == 47) = [] := by
      have hsplit := List.rdropWhile_append_rtakeWhile (p := (· == 47)) (l := counted)
      rw [hnone] at hsplit
      exact List.append_right_eq_self.1 hsplit
    have hrest : first :: counted ++ (behind ++ [0]) = first :: (counted ++ behind) ++ 0 :: [] := by
      simp
    rw [if_neg hlast, hnone, hslashes, List.length_nil, List.replicate_zero, List.nil_append,
      hrest, stringIn_append hnoNul]

/-- An index that begins in front of the string leads out of it. -/
theorem stripTrailingSlashAt_eq_none (h : wrapInt path.bytes.length ≤ 0) :
    stripTrailingSlashAt path = none := by
  have hneg : wrapInt path.bytes.length - 1 < 0 := by omega
  have hloop : stripLoop path.memory (wrapInt path.bytes.length - 1 + 1) = none :=
    stripLoop_of_neg hneg
  rw [Int.sub_add_cancel] at hloop
  rw [stripTrailingSlashAt, hloop, Option.map_none]

/-- The parent that is found. -/
theorem getParentDirAt_eq (hbytes : path.bytes = first :: (counted ++ behind))
    (hlength : wrapInt path.bytes.length = counted.length + 1) :
    getParentDirAt path =
      some (if lastSlash path.bytes counted.length = 0 then [47]
        else path.bytes.take (lastSlash path.bytes counted.length)) := by
  have hlt : counted.length < path.bytes.length := by
    rw [hbytes, List.length_cons, List.length_append]
    omega
  have hindex : wrapInt ((path.bytes.length : ℤ) - 1) = counted.length := by
    rw [wrapInt, Int.bmod_def] at hlength ⊢
    omega
  rw [getParentDirAt, hindex, parentLoop_eq path hlt]
  simp only [bind, Option.bind, pure, Int.toNat_natCast, Int.natCast_eq_zero]

theorem lastSlash_le (path : Bytes) (endIdx : ℕ) : lastSlash path endIdx ≤ endIdx := by
  induction endIdx with
  | zero => exact Nat.le_refl _
  | succ endIdx ih =>
      rw [lastSlash]
      split
      · exact Nat.le_refl _
      · exact Nat.le_succ_of_le ih

/-- There are no two slashes in a row in a clean path. -/
theorem not_isClean_slashes (name : Bytes) : ¬ IsClean (47 :: 47 :: name) := by
  intro h
  rw [IsClean, cleanName] at h
  split at h
  · cases h
  · have hchain := List.isChain_destutter (R := NotBothSlashes) (47 :: 47 :: name)
    rw [← List.rdropWhile_append_rtakeWhile (p := (· == 47))
      (l := (47 :: 47 :: name).destutter NotBothSlashes), h] at hchain
    have hleft := hchain.left_of_append
    rw [List.isChain_cons_cons] at hleft
    exact hleft.1 ⟨rfl, rfl⟩

/-- A path with a slash has a last one. -/
theorem exists_last_slash {text : Bytes} (h : 47 ∈ text) :
    ∃ dir name, text = dir ++ 47 :: name ∧ 47 ∉ name := by
  obtain ⟨dir, base, m, -, hbase, rfl⟩ := exists_eq_append_slashes h
  refine ⟨dir ++ List.replicate m 47, base, ?_, hbase⟩
  rw [List.replicate_succ']
  simp

/-- The last slash is found if it is one of the counted characters. -/
theorem getParentDirAt_of_notMem (hbytes : path.bytes = first :: (counted ++ behind))
    (hlength : wrapInt path.bytes.length = counted.length + 1) (hbehind : 47 ∉ behind)
    {dir name : Bytes} (hsplit : path.bytes = dir ++ 47 :: name) (hname : 47 ∉ name) :
    getParentDirAt path = some (if dir = [] then [47] else dir) := by
  have hdir : dir.length ≤ counted.length := by
    by_contra hlt
    have hdrop : behind = path.bytes.drop (counted.length + 1) := by
      rw [hbytes, List.drop_succ_cons, List.drop_left]
    rw [hsplit, List.drop_append_of_le_length (by omega)] at hdrop
    exact hbehind (hdrop ▸ List.mem_append_right _ List.mem_cons_self)
  have hname' : counted.length - dir.length ≤ name.length := by
    have htotal := congrArg List.length (hbytes.symm.trans hsplit)
    simp only [List.length_cons, List.length_append] at htotal
    omega
  have hlast : lastSlash path.bytes counted.length = dir.length := by
    have hfound : lastSlash (dir ++ 47 :: name) (dir.length + (counted.length - dir.length)) = _ :=
      lastSlash_append hname _ hname'
    rwa [Nat.add_sub_cancel' hdir, ← hsplit] at hfound
  rw [getParentDirAt_eq hbytes hlength, hlast, hsplit, List.take_left]
  simp only [List.length_eq_zero_iff]

/-- The last slash is not found if it is behind the counted characters. -/
theorem notMem_of_getParentDirAt (hbytes : path.bytes = first :: (counted ++ behind))
    (hlength : wrapInt path.bytes.length = counted.length + 1) (hclean : IsClean path.bytes)
    (hparent : ∀ dir name, path.bytes = dir ++ 47 :: name → 47 ∉ name →
      getParentDirAt path = some (if dir = [] then [47] else dir)) : 47 ∉ behind := by
  intro hmem
  obtain ⟨front, name, rfl, hname⟩ := exists_last_slash hmem
  have hfound := hparent (first :: (counted ++ front)) name (by rw [hbytes]; simp) hname
  rw [getParentDirAt_eq hbytes hlength, Option.some_inj, if_neg (List.cons_ne_nil _ _)] at hfound
  split at hfound
  · -- the path would begin with two slashes
    obtain ⟨rfl, hnil⟩ := List.cons.inj hfound
    obtain ⟨rfl, rfl⟩ := List.append_eq_nil_iff.1 hnil.symm
    rw [hbytes, List.nil_append, List.nil_append] at hclean
    exact not_isClean_slashes name hclean
  · have hshort := congrArg List.length hfound
    have hle := lastSlash_le path.bytes counted.length
    simp only [List.length_take, List.length_cons, List.length_append] at hshort
    omega

end Trim

/-- The characters that the length of a path as an `int` counts, and those that it does not. -/
theorem exists_counted {path : Bytes} (h : 0 < wrapInt path.length) :
    ∃ first counted behind, path = first :: (counted ++ behind) ∧
      wrapInt path.length = counted.length + 1 := by
  cases path with
  | nil => exact absurd h (by decide)
  | cons first path =>
      have hnonneg : 0 ≤ wrapInt (first :: path).length - 1 := by omega
      obtain ⟨k, hk⟩ := Int.eq_ofNat_of_zero_le hnonneg
      have hle : k ≤ path.length := by
        rw [wrapInt, Int.bmod_def, List.length_cons] at hk
        omega
      refine ⟨first, path.take k, path.drop k, by rw [List.take_append_drop], ?_⟩
      rw [List.length_take_of_le hle]
      omega

/-- **When the functions leave their string**: when the index begins in front of it. -/
theorem trimmed_eq_none_iff (path : CString) :
    (stripTrailingSlashAt path = none ↔ wrapInt path.bytes.length ≤ 0) ∧
      (getParentDirAt path = none ↔ wrapInt (path.bytes.length - 1) < 0) := by
  constructor
  · refine ⟨fun h => ?_, stripTrailingSlashAt_eq_none⟩
    by_contra hpos
    obtain ⟨first, counted, behind, hbytes, hlength⟩ := exists_counted (Int.not_le.1 hpos)
    rw [stripTrailingSlashAt_eq hbytes hlength] at h
    cases h
  · constructor
    · intro h
      by_contra hneg
      obtain ⟨endIdx, hendIdx⟩ := Int.eq_ofNat_of_zero_le (Int.not_lt.1 hneg)
      have hlt : endIdx < path.bytes.length := by
        rw [wrapInt, Int.bmod_def] at hendIdx
        omega
      rw [getParentDirAt, hendIdx, parentLoop_eq path hlt] at h
      cases h
    · intro hneg
      rw [getParentDirAt, parentLoop_of_neg hneg]
      rfl

/-- A path of fewer than `2 ^ 31` characters can be trimmed if it is not empty. -/
theorem trimmable_iff_of_lt {path : Bytes} (h : path.length < 2 ^ 31) :
    Trimmable path ↔ path ≠ [] := by
  constructor
  · rintro ⟨first, counted, behind, rfl, -⟩
    exact List.cons_ne_nil _ _
  · intro hne
    obtain ⟨first, counted, rfl⟩ := List.exists_cons_of_ne_nil hne
    refine ⟨first, counted, [], by rw [List.append_nil], ?_, fun hnil => absurd rfl hnil, ?_⟩
    · rw [wrapInt_of_lt (by omega) (by omega), List.length_cons, Int.natCast_add]
      rfl
    · exact fun _ _ => List.not_mem_nil

/-- A path is trimmed inside if it can be trimmed. -/
theorem trimsInside_iff_trimmable (path : CString) :
    TrimsInside path ↔ Trimmable path.bytes := by
  constructor
  · intro h
    have hpos : 0 < wrapInt path.bytes.length := by
      by_contra hneg
      have hstripped := h.stripped
      rw [stripTrailingSlashAt_eq_none (by omega)] at hstripped
      cases hstripped
    obtain ⟨first, counted, behind, hbytes, hlength⟩ := exists_counted hpos
    refine ⟨first, counted, behind, hbytes, hlength, ?_, fun habsolute hclean => ?_⟩
    · have hstripped := h.stripped
      rw [stripTrailingSlashAt_eq hbytes hlength, Option.some_inj, hbytes] at hstripped
      exact (sameSlashes_iff first counted behind).2 hstripped
    · exact notMem_of_getParentDirAt hbytes hlength hclean (h.parent habsolute hclean)
  · rintro ⟨first, counted, behind, hbytes, hlength, hsame, hparent⟩
    refine ⟨?_, ?_, fun habsolute hclean dir name hsplit hname => ?_⟩
    · rw [stripTrailingSlashAt_eq hbytes hlength, hbytes,
        (sameSlashes_iff first counted behind).1 hsame]
    · rw [getParentDirAt_eq hbytes hlength]
      exact Option.some_ne_none _
    · exact getParentDirAt_of_notMem hbytes hlength (hparent habsolute hclean) hsplit hname

/-- **The functions with indices are those of the paths**, if the index does not begin in front of
the string and counts all of it. -/
theorem trimmed_eq_of_lt {path : CString} (hlt : path.bytes.length < 2 ^ 31)
    (hne : path.bytes ≠ []) :
    stripTrailingSlashAt path = some (stripTrailingSlash path.bytes) ∧
      getParentDirAt path = some (getParentDir path.bytes) := by
  refine ⟨((trimsInside_iff_trimmable path).2 ((trimmable_iff_of_lt hlt).2 hne)).stripped, ?_⟩
  obtain ⟨first, counted, hbytes⟩ := List.exists_cons_of_ne_nil hne
  have hlength : wrapInt path.bytes.length = counted.length + 1 := by
    rw [wrapInt_of_lt (by omega) (by omega), hbytes, List.length_cons, Int.natCast_add]
    rfl
  have hindex : path.bytes.length - 1 = counted.length := by rw [hbytes]; rfl
  have hall : path.bytes = first :: (counted ++ []) := by rw [hbytes, List.append_nil]
  rw [getParentDirAt_eq hall hlength, getParentDir, hindex]
  cases lastSlash path.bytes counted.length <;> rfl

/-- **Exactly when a path is trimmed inside**: if its length as an `int` counts some of its
characters and the others make no difference, and so for fewer than `2 ^ 31` characters if it is not
empty. -/
theorem trimsInside_iff (path : CString) :
    (TrimsInside path ↔ Trimmable path.bytes) ∧
      (path.bytes.length < 2 ^ 31 → (TrimsInside path ↔ path.bytes ≠ [])) :=
  ⟨trimsInside_iff_trimmable path,
    fun h => (trimsInside_iff_trimmable path).trans (trimmable_iff_of_lt h)⟩

theorem trimsInside_slashes : TrimsInside ⟨ascii "/a//", by decide⟩ :=
  ((trimsInside_iff ⟨ascii "/a//", by decide⟩).2 (by decide)).2 (by decide)

/-- The empty string, which is what is left of the root without its slash, is not. -/
theorem not_trimsInside_empty : ¬ TrimsInside ⟨[], List.not_mem_nil⟩ := by
  intro h
  have hstripped := h.stripped
  rw [stripTrailingSlashAt_eq_none (by decide)] at hstripped
  cases hstripped

end AwsS3fs
