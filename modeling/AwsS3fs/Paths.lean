/-
**Paths of files.**

The functions of `s3if.c` that take paths apart: they remove slashes, add one, and find the
directory of a file.  A directory is recognised by a file in it with a name of its own.

Main definitions:

* `AwsS3fs.stripTrailingSlash`, `AwsS3fs.addTrailingSlash`, `AwsS3fs.getParentDir`,
  `AwsS3fs.cleanPath` — the functions of `s3if.c`;
* `AwsS3fs.normalizePath` — the name under which `S3FileStat` looks for a file;
* `AwsS3fs.isS3DirectoryFile` — the file in a directory.

Main results:

* `AwsS3fs.getLast?_normalizePath` — a name has a slash at its end only at the root.
-/

import AwsS3fs.Lib.Bytes
import Mathlib.Data.List.DropRight

set_option relaxedAutoImplicit false
set_option autoImplicit false

namespace AwsS3fs

open CLib

/-! ### Slashes -/

/-- `IS_S3_DIRECTORY_FILE`. -/
def isS3DirectoryFile : Bytes := ascii "/.----s3--dir--do-not-delete"

/-- `StripTrailingSlash`: all slashes at the end, but not the first character.  In front of an empty
string there is no slash. -/
def stripTrailingSlash : Bytes → Bytes
  | [] => []
  | ch :: filename => ch :: filename.rdropWhile (· == 47)

/-- `AddTrailingSlash`.  A copy with a slash already is not terminated: `garbage` is what comes
after it. -/
def addTrailingSlash (garbage filename : Bytes) : Bytes :=
  if filename ≠ [] ∧ filename.getLast? ≠ some 47 then filename ++ [47] else filename ++ garbage

/-- The name under which `S3FileStat` looks for a file: one slash in front and none behind. -/
def normalizePath (file : Bytes) : Bytes := stripTrailingSlash (47 :: file.dropWhile (· == 47))

/-- The loop of `CleanPath`, which ends its copy behind a backslash: `escaped` is never reset. -/
def cleanSlashes : Bool → Bytes → Bytes
  | _, [] => []
  | slashFound, ch :: inpath =>
      if ch = 47 then
        if slashFound then cleanSlashes true inpath else 47 :: cleanSlashes true inpath
      else ch :: if ch = 92 then [] else cleanSlashes false inpath

/-- `CleanPath`. -/
def cleanPath (inpath : Bytes) : Bytes := stripTrailingSlash (cleanSlashes false inpath)

/-- The loop of `GetParentDir`: the index of the last slash, or `0`. -/
def lastSlash (path : Bytes) : ℕ → ℕ
  | 0 => 0
  | endIdx + 1 => if path[endIdx + 1]? = some 47 then endIdx + 1 else lastSlash path endIdx

/-- `GetParentDir`. -/
def getParentDir (path : Bytes) : Bytes :=
  match lastSlash path (path.length - 1) with
  | 0 => [47]
  | endIdx + 1 => path.take (endIdx + 1)

/-! ### Names -/

/-- What is dropped at the end. -/
theorem rdropWhile_append_of_forall {p : UInt8 → Bool} {left right : Bytes}
    (hright : ∀ ch ∈ right, p ch = true) : (left ++ right).rdropWhile p = left.rdropWhile p := by
  rw [List.rdropWhile, List.rdropWhile, List.reverse_append, List.dropWhile_append_of_pos]
  simpa using hright

theorem stripTrailingSlash_eq (filename : Bytes) :
    stripTrailingSlash filename = filename.take 1 ++ (filename.drop 1).rdropWhile (· == 47) := by
  cases filename <;> rfl

theorem stripTrailingSlash_of_notMem {name : Bytes} (h : 47 ∉ name) :
    stripTrailingSlash name = name := by
  cases name with
  | nil => rfl
  | cons ch name =>
      rw [stripTrailingSlash, List.rdropWhile_eq_self_iff.2]
      intro hne hslash
      refine h (List.mem_cons_of_mem _ ?_)
      obtain heq : name.getLast hne = 47 := by simpa using hslash
      exact heq ▸ List.getLast_mem hne

theorem stripTrailingSlash_append {name : Bytes} (hne : name ≠ []) (h : 47 ∉ name) :
    stripTrailingSlash (name ++ [47]) = name := by
  cases name with
  | nil => exact absurd rfl hne
  | cons ch name =>
      rw [List.cons_append, stripTrailingSlash, List.rdropWhile_concat_pos _ _ _ (by rfl)]
      exact stripTrailingSlash_of_notMem h

/-- **A name has a slash at its end only at the root.** -/
theorem getLast?_normalizePath {file : Bytes} (h : normalizePath file ≠ [47]) :
    (normalizePath file).getLast? ≠ some 47 := by
  rw [normalizePath, stripTrailingSlash] at h ⊢
  have hne : (file.dropWhile (· == 47)).rdropWhile (· == 47) ≠ [] := by
    intro hnil
    rw [hnil] at h
    exact h rfl
  rw [List.getLast?_cons_of_ne_nil hne, List.getLast?_eq_some_getLast hne]
  intro hlast
  exact List.rdropWhile_last_not (· == 47) _ hne (by simpa using hlast)

/-- A name is its own name. -/
theorem normalizePath_normalizePath (file : Bytes) :
    normalizePath (normalizePath file) = normalizePath file := by
  have hdrop : ((file.dropWhile (· == 47)).rdropWhile (· == 47)).dropWhile (· == 47) =
      (file.dropWhile (· == 47)).rdropWhile (· == 47) := by
    obtain ⟨t, ht⟩ := List.rdropWhile_prefix (· == 47) (file.dropWhile (· == 47))
    cases hname : (file.dropWhile (· == 47)).rdropWhile (· == 47) with
    | nil => rfl
    | cons ch name =>
        rw [hname, List.cons_append] at ht
        have hhead : (ch == 47) = false := not_of_dropWhile_eq_cons (p := (· == 47)) ht.symm
        exact List.dropWhile_cons_of_neg (Bool.eq_false_iff.1 hhead)
  rw [normalizePath, normalizePath, stripTrailingSlash, stripTrailingSlash,
    List.dropWhile_cons_of_pos (by rfl), hdrop, List.rdropWhile_idempotent]

theorem addTrailingSlash_normalizePath {file : Bytes} (h : normalizePath file ≠ [47])
    (garbage : Bytes) : addTrailingSlash garbage (normalizePath file) = normalizePath file ++ [47] :=
  if_pos ⟨List.cons_ne_nil _ _, getLast?_normalizePath h⟩

/-- The last slash of a path, if the name behind it has none. -/
theorem lastSlash_append {dir name : Bytes} (hname : 47 ∉ name) (n : ℕ) (hn : n ≤ name.length) :
    lastSlash (dir ++ 47 :: name) (dir.length + n) = dir.length := by
  induction n with
  | zero =>
      cases hdir : dir.length with
      | zero => rfl
      | succ k =>
          have hslash : (dir ++ 47 :: name)[k + 1]? = some 47 := by
            rw [List.getElem?_append_right (by omega), hdir, Nat.sub_self]
            rfl
          exact if_pos hslash
  | succ n ih =>
      have hne : (dir ++ 47 :: name)[dir.length + n + 1]? ≠ some 47 := by
        rw [List.getElem?_append_right (by omega),
          show dir.length + n + 1 - dir.length = n + 1 by omega, List.getElem?_cons_succ]
        exact fun h => hname (List.mem_of_getElem? h)
      exact (if_neg hne).trans (ih (by omega))

end AwsS3fs
