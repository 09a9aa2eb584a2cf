/-
**Permission to search a path.**

`ValidateDirectoryComponents` (`fuseif.c`) takes the directory of a path apart and examines the
directories on the way to it.  `GetNextPathComponent`, which cuts a component off, stops at a slash
only behind a backslash, where it should go on, and returns one character too few at the end.  So a
path without backslashes has one component: its directory without the last character.

Main definitions:

* `AwsS3fs.DirectoryTree` — the files, the accounts and the caller;
* `AwsS3fs.getNextPathComponent`, `AwsS3fs.DirectoryTree.validateDirectoryComponents` — the
  functions of `fuseif.c`;
* `AwsS3fs.properAncestors`, `AwsS3fs.DirectoryTree.firstError` — what should be examined, and with
  which result;
* `AwsS3fs.searchedNames` — what is examined;
* `AwsS3fs.OneLetterDirectory` — a path without directories, or with one of a single letter.

Main results:

* `AwsS3fs.validateDirectoryComponents_eq` — the result is the first error among the names that are
  examined;
* `AwsS3fs.searchedNames_of_notMem` — without backslashes there is one name at most;
* `AwsS3fs.searchVerified_iff` — **exactly when the right directories are examined**.
-/

import AwsS3fs.AccessPermissions
import AwsS3fs.CreateMessage
import AwsS3fs.DirectoryListings
import AwsS3fs.Paths

set_option relaxedAutoImplicit false
set_option autoImplicit false

namespace AwsS3fs

open CLib

/-! ### Components -/

/-- The first loop of `GetNextPathComponent`: where it stops. -/
def componentEnd (escaped : Bool) : Bytes → ℕ
  | [] => 0
  | ch :: path =>
      if ch = 47 ∧ escaped = true then 0
      else componentEnd (if ch = 92 then !escaped else false) path + 1

/-- The length of a component: where the loop stops, or one less at the end of the path. -/
def componentLength (path : Bytes) : ℤ :=
  let endPos := componentEnd false path
  if endPos = path.length then endPos - 1 else endPos

/-- `GetNextPathComponent`: the component and its length, and the offset of the next component. -/
def getNextPathComponent (path : Bytes) : Option Bytes × ℤ × ℕ :=
  let endPos := componentEnd false path
  let slashes := ((path.drop endPos).takeWhile (· = 47)).length
  if 0 < componentLength path then
    (some (path.take (componentLength path).toNat), componentLength path, endPos + slashes)
  else (none, componentLength path, 0)

/-- The first loop ends in the path or at its end. -/
theorem componentEnd_le (escaped : Bool) (path : Bytes) :
    componentEnd escaped path ≤ path.length := by
  induction path generalizing escaped with
  | nil => exact le_rfl
  | cons ch path ih =>
      rw [componentEnd]
      split
      · exact Nat.zero_le _
      · exact Nat.succ_le_succ (ih _)

/-- The loop does not stop in front of the end without a backslash. -/
theorem mem_take_componentEnd {escaped : Bool} {path : Bytes}
    (h : componentEnd escaped path < path.length) :
    escaped = true ∨ 92 ∈ path.take (componentEnd escaped path) := by
  induction path generalizing escaped with
  | nil => exact absurd h (Nat.not_lt_zero _)
  | cons ch path ih =>
      rw [componentEnd] at h ⊢
      split
      case isTrue hstop => exact .inl hstop.2
      case isFalse hgo =>
        rw [if_neg hgo, List.length_cons, Nat.succ_lt_succ_iff] at h
        rw [List.take_succ_cons]
        rcases ih h with hescaped | hmem
        · by_cases hch : ch = 92
          · exact .inr (hch ▸ List.mem_cons_self)
          · rw [if_neg hch] at hescaped
            cases hescaped
        · exact .inr (List.mem_cons_of_mem _ hmem)

/-- The offset of a next component lies behind the component. -/
theorem offset_pos {path component : Bytes} {length : ℤ} {offset : ℕ}
    (h : getNextPathComponent path = (some component, length, offset)) :
    0 < offset ∧ 0 < path.length := by
  rw [getNextPathComponent] at h
  split at h
  case isTrue hpos =>
    simp only [Prod.mk.injEq] at h
    obtain ⟨-, -, rfl⟩ := h
    have hend : 0 < componentEnd false path := by
      rw [componentLength] at hpos
      split at hpos <;> omega
    have hle := componentEnd_le false path
    omega
  case isFalse => cases h

/-! ### The directories of a path -/

/-- What is known about the files, by their names, about the accounts, and about the caller, whose
permissions can be decided: no pointer is freed that holds garbage. -/
structure DirectoryTree where
  info : Bytes → Option S3FileInfo
  db : AccountDatabase
  grpbuf : UInt64
  caller : Caller
  decided : ∀ fi : S3FileInfo, (AwsS3fs.verifyAccessPermission db grpbuf caller
    fi.permissions.toInt32 fi.uid fi.gid 1).isSome

namespace DirectoryTree

variable (tree : DirectoryTree)

/-- `S3FileStat`, if it succeeds. -/
def s3FileStat (file : Bytes) : Option S3FileInfo := tree.info (normalizePath file)

/-- `IsExecutable`. -/
def isExecutable (fi : S3FileInfo) : Bool :=
  (AwsS3fs.verifyAccessPermission tree.db tree.grpbuf tree.caller fi.permissions.toInt32 fi.uid
    fi.gid 1).get (tree.decided fi)

/-- The status of one directory in `ValidateDirectoryComponents`. -/
def examine (verifyExecutionBit : Bool) (accumulatedPath : Bytes) : ℤ :=
  match tree.s3FileStat accumulatedPath with
  | none => enoent
  | some fileInfo =>
      if fileInfo.fileType ≠ 100 then enotdir
      else if verifyExecutionBit && !tree.isExecutable fileInfo then eacces
      else 0

/-- The loop of `ValidateDirectoryComponents` over the rest of the directory. -/
def validateFrom (verifyExecutionBit : Bool) (accumulatedPath rest : Bytes) : ℤ :=
  match h : getNextPathComponent rest with
  | (none, _, _) => 0
  | (some component, _, position) =>
      let status := tree.examine verifyExecutionBit (accumulatedPath ++ component)
      if status ≠ 0 then status
      else
        validateFrom verifyExecutionBit (accumulatedPath ++ component ++ [47])
          (rest.drop position)
termination_by rest.length
decreasing_by
  have hpos := offset_pos h
  rw [List.length_drop]
  omega

/-- `ValidateDirectoryComponents`. -/
def validateDirectoryComponents (path : Bytes) (verifyExecutionBit : Bool) : ℤ :=
  tree.validateFrom verifyExecutionBit [] (pathGetDirname path)

/-! ### What should be examined -/

/-- What is wrong with a directory, if anything is. -/
def failure (name : Bytes) : Option ℤ :=
  match tree.info name with
  | none => some enoent
  | some fi =>
      if fi.fileType ≠ 100 then some enotdir
      else if tree.isExecutable fi then none
      else some eacces

/-- The first error among the directories, or `0`. -/
def firstError (names : List Bytes) : ℤ := (names.findSome? tree.failure).getD 0

end DirectoryTree

/-- The names in a path. -/
def pathNames (path : Bytes) : List Bytes := (path.splitOn 47).filter (· ≠ [])

/-- The absolute path with the given names. -/
def absolutePath (names : List Bytes) : Bytes :=
  if names = [] then [47] else names.flatMap (47 :: ·)

/-- The directories above a path, from the root on. -/
def properAncestors (path : Bytes) : List Bytes :=
  (List.range (pathNames path).length).map fun n => absolutePath ((pathNames path).take n)

/-- The paths that the loop accumulates. -/
def accumulatedFrom (accumulatedPath rest : Bytes) : List Bytes :=
  match h : getNextPathComponent rest with
  | (none, _, _) => []
  | (some component, _, position) =>
      (accumulatedPath ++ component) ::
        accumulatedFrom (accumulatedPath ++ component ++ [47]) (rest.drop position)
termination_by rest.length
decreasing_by
  have hpos := offset_pos h
  rw [List.length_drop]
  omega

/-- The names of the files that are examined on the way to a path. -/
def searchedNames (path : Bytes) : List Bytes :=
  (accumulatedFrom [] (pathGetDirname path)).map normalizePath

/-- **The search permission is verified** for a path. -/
def SearchVerified (tree : DirectoryTree) (path : Bytes) : Prop :=
  tree.validateDirectoryComponents path true = tree.firstError (properAncestors path)

/-- A path of slashes, or with a single name that has one letter and is followed by slashes. -/
def OneLetterDirectory (path : Bytes) : Prop :=
  (∀ ch ∈ path, ch = 47) ∨
    ∃ k m ch, ch ≠ 47 ∧ path = List.replicate (k + 1) 47 ++ ch :: List.replicate (m + 1) 47

/-! ### What is examined -/

section Examine

variable {tree : DirectoryTree}

theorem examine_eq (accumulatedPath : Bytes) :
    tree.examine true accumulatedPath =
      (tree.failure (normalizePath accumulatedPath)).getD 0 := by
  rw [DirectoryTree.examine, DirectoryTree.s3FileStat, DirectoryTree.failure]
  cases tree.info (normalizePath accumulatedPath) with
  | none => rfl
  | some fi =>
      by_cases htype : fi.fileType = 100
      · by_cases hexec : tree.isExecutable fi = true
        · simp [htype, hexec]
        · simp [htype, hexec]
      · simp [htype]

/-- An error is not `0`. -/
theorem failure_ne_zero {name : Bytes} {status : ℤ} (h : tree.failure name = some status) :
    status ≠ 0 := by
  rw [DirectoryTree.failure] at h
  split at h
  · obtain rfl := Option.some.inj h
    decide
  · split at h
    · obtain rfl := Option.some.inj h
      decide
    · split at h
      · cases h
      · obtain rfl := Option.some.inj h
        decide

theorem firstError_cons (name : Bytes) (names : List Bytes) :
    tree.firstError (name :: names) =
      if tree.failure name = none then tree.firstError names
      else (tree.failure name).getD 0 := by
  rw [DirectoryTree.firstError, List.findSome?_cons]
  cases tree.failure name with
  | none => rfl
  | some status => rfl

/-- The loop stops at the first error. -/
theorem validateFrom_eq (accumulatedPath rest : Bytes) :
    tree.validateFrom true accumulatedPath rest =
      tree.firstError ((accumulatedFrom accumulatedPath rest).map normalizePath) := by
  fun_induction accumulatedFrom accumulatedPath rest with
  | case1 accumulatedPath rest length offset h =>
      rw [DirectoryTree.validateFrom]
      split
      case h_1 => rfl
      case h_2 component length' position h' => rw [h] at h'; cases h'
  | case2 accumulatedPath rest component length position h ih =>
      rw [DirectoryTree.validateFrom]
      split
      case h_1 length' offset h' => rw [h] at h'; cases h'
      case h_2 component' length' position' h' =>
        obtain ⟨rfl, rfl, rfl⟩ : component = component' ∧ length = length' ∧
            position = position' := by
          simpa using h.symm.trans h'
        rw [List.map_cons, firstError_cons, examine_eq]
        cases hfailure : tree.failure (normalizePath (accumulatedPath ++ component)) with
        | none => exact ih
        | some status => simp [failure_ne_zero hfailure]

/-- **The result is the first error** among the names that are examined. -/
theorem validateDirectoryComponents_eq (path : Bytes) :
    tree.validateDirectoryComponents path true = tree.firstError (searchedNames path) :=
  validateFrom_eq [] (pathGetDirname path)

end Examine

/-- Only the path that the loop begins with and its components are accumulated. -/
theorem mem_accumulatedFrom {ch : UInt8} {accumulatedPath rest accumulated : Bytes}
    (hch : ch ∈ accumulatedPath) (h : accumulated ∈ accumulatedFrom accumulatedPath rest) :
    ch ∈ accumulated := by
  fun_induction accumulatedFrom accumulatedPath rest with
  | case1 => cases h
  | case2 accumulatedPath rest component length position hnext ih =>
      rcases List.mem_cons.1 h with rfl | hmem
      · exact List.mem_append_left _ hch
      · exact ih (List.mem_append_left _ (List.mem_append_left _ hch)) hmem

theorem accumulatedFrom_none {accumulatedPath rest : Bytes} {length : ℤ} {offset : ℕ}
    (h : getNextPathComponent rest = (none, length, offset)) :
    accumulatedFrom accumulatedPath rest = [] := by
  rw [accumulatedFrom]
  split
  case h_1 => rfl
  case h_2 component length' position h' => rw [h] at h'; cases h'

theorem accumulatedFrom_some {accumulatedPath rest component : Bytes} {length : ℤ} {position : ℕ}
    (h : getNextPathComponent rest = (some component, length, position)) :
    accumulatedFrom accumulatedPath rest = (accumulatedPath ++ component) ::
      accumulatedFrom (accumulatedPath ++ component ++ [47]) (rest.drop position) := by
  rw [accumulatedFrom]
  split
  case h_1 length' offset h' => rw [h] at h'; cases h'
  case h_2 component' length' position' h' =>
    obtain ⟨rfl, rfl, rfl⟩ : component = component' ∧ length = length' ∧
        position = position' := by
      simpa using h.symm.trans h'
    rfl

/-- A directory in which the loop does not stop has one component. -/
theorem accumulatedFrom_of_end {directory : Bytes}
    (hend : componentEnd false directory = directory.length) :
    accumulatedFrom [] directory =
      if directory.length ≤ 1 then [] else [directory.dropLast] := by
  have hlength : componentLength directory = directory.length - 1 := by
    rw [componentLength, hend, if_pos rfl]
  have hnext : getNextPathComponent directory =
      if 0 < componentLength directory then
        (some (directory.take (componentLength directory).toNat), componentLength directory,
          directory.length)
      else (none, componentLength directory, 0) := by
    rw [getNextPathComponent, hend, List.drop_length]
    rfl
  split
  case isTrue hshort =>
    rw [if_neg (by omega)] at hnext
    exact accumulatedFrom_none hnext
  case isFalse hlong =>
    have htake : directory.take (componentLength directory).toNat = directory.dropLast := by
      rw [List.dropLast_eq_take, hlength]
      congr 1
      omega
    rw [if_pos (by omega), htake] at hnext
    have hnil : getNextPathComponent [] = (none, -1, 0) := rfl
    rw [accumulatedFrom_some hnext, List.drop_length, List.nil_append, accumulatedFrom_none hnil]

/-- A directory in which the loop stops has a first component with a backslash. -/
theorem mem_of_mem_accumulatedFrom {directory accumulated : Bytes}
    (hend : componentEnd false directory < directory.length)
    (h : accumulated ∈ accumulatedFrom [] directory) : 92 ∈ accumulated := by
  have hlength : componentLength directory = componentEnd false directory := by
    rw [componentLength, if_neg hend.ne]
  have hback : 92 ∈ directory.take (componentEnd false directory) :=
    (mem_take_componentEnd hend).resolve_left (by decide)
  have hnext : getNextPathComponent directory =
      (some (directory.take (componentEnd false directory)), componentLength directory,
        componentEnd false directory +
          ((directory.drop (componentEnd false directory)).takeWhile (· = 47)).length) := by
    have hpos : 0 < componentEnd false directory := by
      rcases Nat.eq_zero_or_pos (componentEnd false directory) with hzero | hpos
      · rw [hzero] at hback
        cases hback
      · exact hpos
    rw [getNextPathComponent, if_pos (by omega), hlength, Int.toNat_natCast]
  rw [accumulatedFrom_some hnext, List.nil_append] at h
  rcases List.mem_cons.1 h with rfl | hmem
  · exact hback
  · exact mem_accumulatedFrom (List.mem_append_left _ hback) hmem

/-! ### Slashes -/

/-- A name is that of the root if there are only slashes. -/
theorem normalizePath_eq_root_iff {file : Bytes} :
    normalizePath file = [47] ↔ ∀ ch ∈ file, ch = 47 := by
  rw [normalizePath, stripTrailingSlash, List.cons_eq_cons, List.rdropWhile_eq_nil_iff]
  constructor
  · rintro ⟨-, hall⟩
    cases hdrop : file.dropWhile (· == 47) with
    | nil => simpa using hdrop
    | cons ch rest =>
        have hch := hall ch (by rw [hdrop]; exact List.mem_cons_self)
        exact absurd hch (by simpa using not_of_dropWhile_eq_cons hdrop)
  · intro hall
    have hdrop : file.dropWhile (· == 47) = [] := by simpa using hall
    simp [hdrop]

/-- The directory of a path that ends with slashes and a name. -/
theorem pathGetDirname_append {dir base : Bytes} (hdir : dir.getLast? ≠ some 47) (m : ℕ)
    (hbase : 47 ∉ base) :
    pathGetDirname (dir ++ List.replicate (m + 1) 47 ++ base) =
      if dir = [] then [47] else dir := by
  have hname : (dir ++ List.replicate (m + 1) 47 ++ base).rdropWhile (· ≠ 47) =
      dir ++ List.replicate (m + 1) 47 := by
    have hnot : ∀ ch ∈ base, decide (ch ≠ 47) = true := fun ch hch => by
      simpa using ne_of_mem_of_not_mem hch hbase
    rw [rdropWhile_append_of_forall hnot, List.replicate_succ', ← List.append_assoc,
      List.rdropWhile_concat_neg _ _ _ (by simp)]
  have hslashes : (dir ++ List.replicate (m + 1) 47).rdropWhile (· = 47) = dir := by
    rw [rdropWhile_append_of_forall (by simp), List.rdropWhile_eq_self_iff]
    intro hne hlast
    rw [List.getLast?_eq_some_getLast hne] at hdir
    exact hdir (congrArg some (by simpa using hlast))
  rw [pathGetDirname, if_pos (by simp), hname, hslashes]

/-- A path with a slash is a directory, slashes and a name. -/
theorem exists_eq_append_slashes {path : Bytes} (h : 47 ∈ path) :
    ∃ (dir base : Bytes) (m : ℕ), dir.getLast? ≠ some 47 ∧ 47 ∉ base ∧
      path = dir ++ List.replicate (m + 1) 47 ++ base := by
  induction path using List.reverseRecOn with
  | nil => cases h
  | append_singleton path last ih =>
      by_cases hlast : last = 47
      · obtain rfl := hlast
        by_cases hend : path.getLast? = some 47
        · obtain ⟨dir, base, m, hdir, hbase, rfl⟩ := ih (List.mem_of_getLast? hend)
          have hnil : base = [] := by
            cases base using List.reverseRecOn with
            | nil => rfl
            | append_singleton base b =>
                rw [← List.append_assoc, List.getLast?_concat] at hend
                exact absurd (List.mem_append_right _ (by simpa using hend.symm)) hbase
          obtain rfl := hnil
          exact ⟨dir, [], m + 1, hdir, List.not_mem_nil, by
            rw [List.append_nil, List.append_nil, List.append_assoc, ← List.replicate_succ']⟩
        · exact ⟨path, [], 0, hend, List.not_mem_nil, by simp⟩
      · have hmem : 47 ∈ path := by simpa [Ne.symm hlast] using h
        obtain ⟨dir, base, m, hdir, hbase, rfl⟩ := ih hmem
        exact ⟨dir, base ++ [last], m, hdir, by simp [hbase, Ne.symm hlast],
          by rw [List.append_assoc]⟩

/-- **Without backslashes** the directory without its last character is examined, and no other. -/
theorem searchedNames_of_notMem {path : Bytes} (h : 92 ∉ pathGetDirname path) :
    searchedNames path =
      if (pathGetDirname path).length ≤ 1 then []
      else [normalizePath (pathGetDirname path).dropLast] := by
  have hend : componentEnd false (pathGetDirname path) = (pathGetDirname path).length := by
    refine (componentEnd_le _ _).eq_of_not_lt fun hlt => ?_
    rcases mem_take_componentEnd hlt with hfalse | hmem
    · cases hfalse
    · exact h (List.mem_of_mem_take hmem)
  rw [searchedNames, accumulatedFrom_of_end hend]
  split
  · rfl
  · rfl

/-! ### Names -/

theorem pathNames_append (left right : Bytes) :
    pathNames (left ++ 47 :: right) = pathNames left ++ pathNames right := by
  rw [pathNames, List.splitOn_append_cons_self, List.filter_append]
  rfl

theorem pathNames_of_notMem {name : Bytes} (h : 47 ∉ name) (hne : name ≠ []) :
    pathNames name = [name] := by
  rw [pathNames, List.splitOn_eq_singleton h]
  simp [hne]

/-- Slashes in front of a path do not count. -/
theorem pathNames_replicate (k : ℕ) (path : Bytes) :
    pathNames (List.replicate k 47 ++ path) = pathNames path := by
  induction k with
  | zero => rfl
  | succ k ih => rw [List.replicate_succ, List.cons_append, ← List.nil_append (47 :: _),
      pathNames_append, ih]; rfl

/-- The name in front of slashes is the first. -/
theorem pathNames_cons {name : Bytes} (hname : 47 ∉ name) (hne : name ≠ []) (k m : ℕ)
    (base : Bytes) :
    pathNames (List.replicate k 47 ++ (name ++ (List.replicate (m + 1) 47 ++ base))) =
      name :: pathNames base := by
  rw [pathNames_replicate, List.replicate_succ, List.cons_append, pathNames_append,
    pathNames_replicate, pathNames_of_notMem hname hne]
  rfl

/-- A path without names has only slashes. -/
theorem pathNames_ne_nil {path : Bytes} (h : ¬ ∀ ch ∈ path, ch = 47) : pathNames path ≠ [] := by
  induction path with
  | nil => exact absurd (by simp) h
  | cons ch path ih =>
      by_cases hch : ch = 47
      · obtain rfl := hch
        rw [← List.nil_append (47 :: path), pathNames_append]
        exact List.append_ne_nil_of_right_ne_nil _ (ih (by simpa using h))
      · have hne : (ch == 47) = false := by simpa using hch
        rw [pathNames, List.splitOn_cons_eq_if_modifyHead, hne]
        cases hsplit : path.splitOn 47 with
        | nil => exact absurd hsplit (List.splitOn_ne_nil _ _)
        | cons name names => simp

/-! ### The right directories -/

/-- A directory that everybody may search. -/
def openDirectory : S3FileInfo where
  uid := 0
  gid := 0
  permissions := 0o755
  fileType := 100
  exeUid := false
  exeGid := false
  sticky := false
  size := 0
  atime := 0
  mtime := 0
  ctime := 0

/-- Every name but one is a directory that may be searched by root. -/
def treeWithout (name : Bytes) : DirectoryTree where
  info name' := if name' = name then none else some openDirectory
  db := ⟨fun _ => none, fun _ => none⟩
  grpbuf := 0
  caller := ⟨0, 0⟩
  decided _ := isSome_verifyAccessPermission

theorem failure_treeWithout (name name' : Bytes) :
    (treeWithout name).failure name' = if name' = name then some enoent else none := by
  have hexec : (treeWithout name).isExecutable openDirectory = true := by
    refine Option.get_of_eq_some _ ?_
    rw [AwsS3fs.verifyAccessPermission]
    exact if_pos ⟨rfl, by decide⟩
  have hinfo : (treeWithout name).info name' = if name' = name then none else some openDirectory :=
    rfl
  rw [DirectoryTree.failure, hinfo]
  by_cases heq : name' = name
  · rw [if_pos heq, if_pos heq]
  · have htype : openDirectory.fileType = 100 := rfl
    rw [if_neg heq, if_neg heq]
    simp [hexec, htype]

theorem firstError_treeWithout (name : Bytes) (names : List Bytes) :
    (treeWithout name).firstError names = if name ∈ names then enoent else 0 := by
  induction names with
  | nil => rfl
  | cons name' names ih =>
      rw [firstError_cons, ih, failure_treeWithout]
      by_cases heq : name' = name
      · simp [heq]
      · simp [heq, Ne.symm heq]

/-- Where the permission is always verified, just the ancestors are examined. -/
theorem mem_searchedNames_iff {path : Bytes} (h : ∀ tree, SearchVerified tree path) (name : Bytes) :
    name ∈ searchedNames path ↔ name ∈ properAncestors path := by
  have hverified := h (treeWithout name)
  rw [SearchVerified, validateDirectoryComponents_eq, firstError_treeWithout,
    firstError_treeWithout] at hverified
  by_cases hsearched : name ∈ searchedNames path <;>
    by_cases hancestor : name ∈ properAncestors path <;>
    simp_all [enoent]

/-- The root is only examined on the way to a file in a directory of one letter, and then nothing
else is. -/
theorem searchedNames_of_mem_root {path : Bytes} (h : [47] ∈ searchedNames path) :
    searchedNames path = [[47]] ∧
      ∃ slashes ch, (∀ c ∈ slashes, c = 47) ∧ slashes ≠ [] ∧
        pathGetDirname path = slashes ++ [ch] := by
  obtain ⟨accumulated, hmem, hroot⟩ := List.mem_map.1 h
  have hslashes := normalizePath_eq_root_iff.1 hroot
  have hend : componentEnd false (pathGetDirname path) = (pathGetDirname path).length := by
    refine (componentEnd_le _ _).eq_of_not_lt fun hlt => ?_
    exact absurd (hslashes 92 (mem_of_mem_accumulatedFrom hlt hmem)) (by decide)
  have haccumulated := accumulatedFrom_of_end hend
  by_cases hlength : (pathGetDirname path).length ≤ 1
  · rw [haccumulated, if_pos hlength] at hmem
    cases hmem
  · rw [if_neg hlength] at haccumulated
    rw [haccumulated, List.mem_singleton] at hmem
    obtain rfl := hmem
    have hne : pathGetDirname path ≠ [] := by
      rintro hnil
      exact hlength (by rw [hnil]; exact Nat.zero_le _)
    refine ⟨by rw [searchedNames, haccumulated, List.map_singleton, hroot], _,
      (pathGetDirname path).getLast hne, hslashes, ?_,
      (List.dropLast_append_getLast hne).symm⟩
    rw [← List.length_pos_iff, List.length_dropLast]
    omega

/-- The ancestors begin with the root. -/
theorem root_mem_properAncestors {path : Bytes} (h : pathNames path ≠ []) :
    [47] ∈ properAncestors path :=
  List.mem_map.2 ⟨0, List.mem_range.2 (List.length_pos_iff.2 h), rfl⟩

theorem exists_eq_replicate {slashes : Bytes} (h : ∀ ch ∈ slashes, ch = 47) (hne : slashes ≠ []) :
    ∃ k, slashes = List.replicate (k + 1) 47 := by
  obtain ⟨k, hk⟩ : ∃ k, slashes.length = k + 1 :=
    Nat.exists_eq_succ_of_ne_zero (List.length_pos_iff.2 hne).ne'
  exact ⟨k, hk ▸ List.eq_replicate_of_mem h⟩

/-- A path of slashes has no directory to search. -/
theorem searchedNames_slashes {path : Bytes} (h : ∀ ch ∈ path, ch = 47) (hne : path ≠ []) :
    searchedNames path = [] ∧ properAncestors path = [] := by
  obtain ⟨k, hk⟩ := exists_eq_replicate h hne
  have hdirname : pathGetDirname path = [47] := by
    have happend : pathGetDirname ([] ++ List.replicate (k + 1) 47 ++ []) =
        if ([] : Bytes) = [] then [47] else [] := pathGetDirname_append (by simp) k (by simp)
    simpa [hk] using happend
  have hnames : pathNames path = [] := by
    rw [hk, ← List.append_nil (List.replicate _ _), pathNames_replicate]
    rfl
  constructor
  · rw [searchedNames_of_notMem (by rw [hdirname]; decide), hdirname]
    rfl
  · rw [properAncestors, hnames]
    rfl

/-- In a directory of one letter the root is searched, and that is all there is. -/
theorem searchedNames_oneLetter {ch : UInt8} (hch : ch ≠ 47) (k m : ℕ) :
    searchedNames (List.replicate (k + 1) 47 ++ ch :: List.replicate (m + 1) 47) = [[47]] ∧
      properAncestors (List.replicate (k + 1) 47 ++ ch :: List.replicate (m + 1) 47) = [[47]] := by
  have hdirname : pathGetDirname (List.replicate (k + 1) 47 ++ ch :: List.replicate (m + 1) 47) =
      List.replicate (k + 1) 47 ++ [ch] := by
    have happend : pathGetDirname
        (List.replicate (k + 1) 47 ++ [ch] ++ List.replicate (m + 1) 47 ++ []) =
          if List.replicate (k + 1) 47 ++ [ch] = [] then [47]
          else List.replicate (k + 1) 47 ++ [ch] :=
      pathGetDirname_append (by simpa using hch) m (by simp)
    simpa using happend
  constructor
  · have hend : componentEnd false (List.replicate (k + 1) 47 ++ [ch]) =
        (List.replicate (k + 1) 47 ++ [ch]).length := by
      refine (componentEnd_le _ _).eq_of_not_lt fun hlt => ?_
      have hmem := (mem_take_componentEnd hlt).resolve_left (by decide)
      rw [List.length_append, List.length_singleton, Nat.lt_succ_iff] at hlt
      rw [List.take_append_of_le_length hlt] at hmem
      exact absurd (List.eq_of_mem_replicate (List.mem_of_mem_take hmem)) (by decide)
    have hroot : normalizePath (List.replicate (k + 1) 47) = [47] :=
      normalizePath_eq_root_iff.2 fun c hc => List.eq_of_mem_replicate hc
    rw [searchedNames, hdirname, accumulatedFrom_of_end hend, if_neg (by simp),
      List.dropLast_concat, List.map_singleton, hroot]
  · have hnames :
        pathNames (List.replicate (k + 1) 47 ++ ch :: List.replicate (m + 1) 47) = [[ch]] := by
      rw [← List.append_nil (List.replicate (m + 1) 47), ← List.singleton_append,
        pathNames_cons (by simpa using Ne.symm hch) (List.cons_ne_nil _ _)]
      rfl
    rw [properAncestors, hnames]
    rfl

/-- **Exactly when the right directories are examined**: for one state of the files, if the first
error among the names that are examined is the first among the ancestors, where without backslashes
the only name is the directory without its last character; whatever the files are, only if there is
no directory in the path but one of a single letter with slashes behind it. -/
theorem searchVerified_iff {path : Bytes} (habsolute : path.head? = some 47) :
    (∀ tree, SearchVerified tree path ↔
        tree.firstError (searchedNames path) = tree.firstError (properAncestors path)) ∧
      (92 ∉ pathGetDirname path → ∀ tree, SearchVerified tree path ↔
        tree.firstError (if (pathGetDirname path).length ≤ 1 then []
            else [normalizePath (pathGetDirname path).dropLast]) =
          tree.firstError (properAncestors path)) ∧
      ((∀ tree, SearchVerified tree path) ↔ OneLetterDirectory path) := by
  have hne : path ≠ [] := by
    rintro rfl
    cases habsolute
  have hverified : ∀ tree, SearchVerified tree path ↔
      tree.firstError (searchedNames path) = tree.firstError (properAncestors path) := by
    intro tree
    rw [SearchVerified, validateDirectoryComponents_eq]
  refine ⟨hverified, fun hback tree => ?_, fun h => ?_, ?_⟩
  · rw [hverified, searchedNames_of_notMem hback]
  · by_cases hslashes : ∀ ch ∈ path, ch = 47
    · exact .inl hslashes
    have hroot : [47] ∈ searchedNames path :=
      (mem_searchedNames_iff h _).2 (root_mem_properAncestors (pathNames_ne_nil hslashes))
    obtain ⟨hsearched, slashes, ch, hall, hsome, hdirname⟩ := searchedNames_of_mem_root hroot
    obtain ⟨k, rfl⟩ := exists_eq_replicate hall hsome
    obtain ⟨dir, base, m, hlast, hbase, rfl⟩ :=
      exists_eq_append_slashes (List.mem_of_mem_head? habsolute)
    rw [pathGetDirname_append hlast m hbase] at hdirname
    split at hdirname
    case isTrue =>
      have hlength := congrArg List.length hdirname
      simp only [List.length_append, List.length_replicate, List.length_singleton] at hlength
      omega
    case isFalse =>
      obtain rfl := hdirname
      have hch : ch ≠ 47 := by simpa using hlast
      cases base with
      | nil => exact .inr ⟨k, m, ch, hch, by simp⟩
      | cons b base =>
          -- the directory of one letter is not the last name, and should be examined
          have hnames : pathNames (List.replicate (k + 1) 47 ++ [ch] ++
              List.replicate (m + 1) 47 ++ b :: base) = [[ch], b :: base] := by
            rw [List.append_assoc, List.append_assoc,
              pathNames_cons (by simpa using Ne.symm hch) (List.cons_ne_nil _ _),
              pathNames_of_notMem hbase (List.cons_ne_nil _ _)]
          have hmem := (mem_searchedNames_iff h [47, ch]).2
            (List.mem_map.2 ⟨1, List.mem_range.2 (by rw [hnames]; exact Nat.one_lt_two),
              by rw [hnames]; rfl⟩)
          rw [hsearched] at hmem
          simp at hmem
  · rintro (hslashes | ⟨k, m, ch, hch, rfl⟩) tree
    · obtain ⟨hsearched, hancestors⟩ := searchedNames_slashes hslashes hne
      rw [SearchVerified, validateDirectoryComponents_eq, hsearched, hancestors]
    · obtain ⟨hsearched, hancestors⟩ := searchedNames_oneLetter hch k m
      rw [SearchVerified, validateDirectoryComponents_eq, hsearched, hancestors]

/-- A file in a directory of one letter, in the two ways of writing it. -/
theorem searchVerified_oneLetter :
    (∀ tree, SearchVerified tree (ascii "/a/")) ∧ OneLetterDirectory (ascii "/a/") :=
  have hletter : OneLetterDirectory (ascii "/a/") := .inr ⟨0, 0, 97, by decide, rfl⟩
  ⟨(searchVerified_iff rfl).2.2.2 hletter, hletter⟩

/-- **A missing directory is not noticed** in front of a file: only the root is examined. -/
theorem not_searchVerified_missing :
    ¬ ∀ (tree : DirectoryTree) (path : Bytes), path.head? = some 47 → SearchVerified tree path := by
  intro h
  have hverified := h (treeWithout (ascii "/a")) (ascii "/a/b") rfl
  have hsearched : searchedNames (ascii "/a/b") = [[47]] := by
    have hdirname : pathGetDirname (ascii "/a/b") = ascii "/a" := by decide
    rw [searchedNames_of_notMem (by rw [hdirname]; decide), hdirname]
    decide
  have hancestors : properAncestors (ascii "/a/b") = [[47], ascii "/a"] := by decide
  rw [SearchVerified, validateDirectoryComponents_eq, hsearched, hancestors,
    firstError_treeWithout, firstError_treeWithout] at hverified
  revert hverified
  decide

end AwsS3fs
