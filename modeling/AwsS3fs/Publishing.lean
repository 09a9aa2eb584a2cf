/-
**Publishing a downloaded file.**

A file is downloaded into the directory of unfinished files, next to a new directory that is to
hold it.  `MoveToSharedCache` (`downloadqueue.c`) has the permissions grant process move both into
the shared cache: it asks first for the owner of the directory, then for the owner of the file, and
then for the move.  But `GrantChown` looks for both in the shared cache, where they are not before
they have been moved, and the errors of the system calls are ignored.  So the directory and the file
arrive with the owners that they were created with.

This module lets the three messages run through the loop of the grant process on a tree of files,
and says when the outcome is the intended one.

Main definitions:

* `AwsS3fs.Grant.Owner`, `AwsS3fs.Grant.Files`, `AwsS3fs.Grant.Syscall.apply` — the files, and what
  a system call does to them;
* `AwsS3fs.Grant.sharedCache` — the files after `MoveToSharedCache`.

Main results:

* `AwsS3fs.Grant.pathOf_cacheFiles`, `AwsS3fs.Grant.pathOf_cacheInprogress` — where the paths of the
  handlers lead;
* `AwsS3fs.Grant.moved_directory`, `AwsS3fs.Grant.moved_file` — what the moves do;
* `AwsS3fs.Grant.published_iff` — **a published file has its owners exactly if it had them
  before**, and nothing was in its way.
-/

import AwsS3fs.GrantMessages
import AwsS3fs.Lib.FileTree

set_option relaxedAutoImplicit false
set_option autoImplicit false

namespace AwsS3fs.Grant

open CLib FileTree

/-! ### The files -/

/-- The owner of a file or of a directory. -/
structure Owner where
  uid : ℤ
  gid : ℤ
  deriving DecidableEq, Repr

/-- The files and directories of the machine. -/
abbrev Files := Tree Bytes Bytes Owner

/-- Where a path leads. -/
def pathOf (path : Bytes) : List Bytes := components slash path

/-- What a system call does to the files.  A descriptor is written to where it was left. -/
def Syscall.apply (files : Files) : Syscall → Files
  | .chown path uid gid => files.chown (pathOf path) ⟨uid, gid⟩
  | .rename oldpath newpath => files.rename (pathOf oldpath) (pathOf newpath)
  | .rmdir path => files.rmdir (pathOf path)
  | .stat _ => files
  | .openRead _ => files
  | .openTrunc path => files.write (pathOf path) fun _ => []
  | .write path data => files.write (pathOf path) (· ++ data)

/-- What the rounds of the loop do to the files. -/
def filesAfter (files : Files) (outcomes : List Outcome) : Files :=
  (outcomes.flatMap Outcome.calls).foldl Syscall.apply files

/-- The files after the grant process has received the messages of `MoveToSharedCache`, one in each
of three rounds. -/
def sharedCache (cacheDir : Bytes) (childPid : ℤ) (loop : Loop) (ucred : Credentials)
    (envs : List Surroundings) (files : Files) (parentname : Bytes) (parentUid parentGid : ℕ)
    (filename : Bytes) (uid gid : ℕ) : Files :=
  filesAfter files (rounds cacheDir childPid loop
    (((moveToSharedCache parentname parentUid parentGid filename uid gid).map
      (·.datagram ucred)).zip envs))

/-! ### Where the paths lead -/

section

variable (cacheDir : Bytes)

/-- The directory of the shared cache. -/
def shared : List Bytes := pathOf cacheDir ++ [ascii "files"]

/-- The directory of the unfinished files. -/
def unfinished : List Bytes := shared cacheDir ++ [ascii "unfinished"]

theorem slash_not_mem (n : Name) : slash ∉ n.chars := by
  intro h
  exact absurd (n.alnum slash h) (by decide)

theorem pathOf_name (n : Name) : pathOf n.chars = [n.chars] :=
  components_name (slash_not_mem n) n.ne_nil

theorem pathOf_cacheFiles (path : Bytes) :
    pathOf (cacheFiles cacheDir ++ path) = shared cacheDir ++ pathOf path := by
  have hsplit : cacheFiles cacheDir ++ path =
      cacheDir ++ slash :: (ascii "files" ++ slash :: path) := by
    rw [cacheFiles, List.append_assoc]
    rfl
  rw [hsplit, pathOf, components_append, components_append, shared, ← List.append_assoc]
  rfl

theorem pathOf_cacheInprogress (path : Bytes) :
    pathOf (cacheInprogress cacheDir ++ path) = unfinished cacheDir ++ pathOf path := by
  have hsplit : cacheInprogress cacheDir ++ path =
      cacheFiles cacheDir ++ (ascii "unfinished" ++ slash :: path) := by
    rw [cacheInprogress, List.append_assoc]
    rfl
  rw [hsplit, pathOf_cacheFiles, pathOf, components_append, unfinished, ← List.append_assoc]
  rfl

theorem pathOf_nested (d n : Name) : pathOf (d.chars ++ slash :: n.chars) = [d.chars, n.chars] := by
  rw [pathOf, components_append]
  exact congrArg₂ (· ++ ·) (pathOf_name d) (pathOf_name n)

/-- A name is too short to be that of the directory of the unfinished files. -/
theorem name_ne_unfinished (n : Name) : n.chars ≠ ascii "unfinished" := by
  intro h
  have := congrArg List.length h
  rw [n.length_eq] at this
  cases this

/-- Nothing in the directory of the unfinished files is under a name of the shared cache. -/
theorem not_prefix_unfinished (d : Name) (q r : List Bytes) :
    ¬ shared cacheDir ++ d.chars :: q <+: unfinished cacheDir ++ r := by
  rw [unfinished, List.append_assoc, List.prefix_append_right_inj]
  intro h
  exact name_ne_unfinished d (List.cons_prefix_cons.1 h).1

/-- Nor the other way around. -/
theorem not_prefix_shared (d : Name) (q r : List Bytes) :
    ¬ unfinished cacheDir ++ r <+: shared cacheDir ++ d.chars :: q := by
  rw [unfinished, List.append_assoc, List.prefix_append_right_inj]
  intro h
  exact name_ne_unfinished d (List.cons_prefix_cons.1 h).1.symm

end

/-! ### The moves -/

section

variable {cacheDir : Bytes} {d f : Name} {files : Files} {dirOwner fileOwner : Owner}
  {content : Bytes}

/-- The directory can be moved, because it is not in the shared cache yet. -/
theorem renamable_directory (hd : files.Has (unfinished cacheDir ++ [d.chars]) (.dir dirOwner))
    (hnew : ∀ x, ¬ files.Has (shared cacheDir ++ [d.chars]) x) :
    files.Renamable (unfinished cacheDir ++ [d.chars]) (shared cacheDir ++ [d.chars]) := by
  refine ⟨not_prefix_shared cacheDir d [] _, not_prefix_unfinished cacheDir d [] _,
    ⟨_, hd, rfl, ?_⟩, by simp, ?_⟩
  · rintro ⟨q, x⟩ hx ⟨r, rfl⟩
    by_cases hr : r = []
    · rw [hr, List.append_nil] at hx
      exact absurd hx (hnew x)
    · obtain ⟨y, hy, -⟩ := Tree.dir_of_has hr hx
      exact absurd hy (hnew y)
  · rw [unfinished, List.append_assoc] at hd
    obtain ⟨y, hy, hdir⟩ := Tree.dir_of_has (by simp) hd
    exact ⟨_, hy, by simp, hdir⟩

/-- **What the first move does**: the directory is in the shared cache with all that is in it, and
the file is where it was. -/
theorem moved_directory (hd : files.Has (unfinished cacheDir ++ [d.chars]) (.dir dirOwner))
    (hf : files.Has (unfinished cacheDir ++ [f.chars]) (.file content fileOwner))
    (hnew : ∀ x, ¬ files.Has (shared cacheDir ++ [d.chars]) x) {files' : Files}
    (hfiles' : files' = files.rename (unfinished cacheDir ++ [d.chars])
      (shared cacheDir ++ [d.chars])) :
    (∀ q x, files'.Has (shared cacheDir ++ [d.chars] ++ q) x ↔
      files.Has (unfinished cacheDir ++ [d.chars] ++ q) x) ∧
    (∀ x, ¬ files'.Has (unfinished cacheDir ++ [d.chars]) x) ∧
    files'.Has (unfinished cacheDir ++ [f.chars]) (.file content fileOwner) := by
  have h := renamable_directory hd hnew
  subst hfiles'
  refine ⟨fun q x => Tree.has_rename_append h, fun x hx => ?_, ?_⟩
  · rw [Tree.has_rename_of_not_prefix h (not_prefix_unfinished cacheDir d [] _)] at hx
    exact hx.2 List.prefix_rfl
  · rw [Tree.has_rename_of_not_prefix h (not_prefix_unfinished cacheDir d [] _)]
    refine ⟨hf, fun hp => ?_⟩
    -- the file is not the directory
    have heq := hp.eq_of_length (by simp)
    rw [heq] at hd
    cases hd.unique hf

/-- The file can be moved into the directory in the shared cache, unless a directory of the same
name is there. -/
theorem renamable_file_iff (hd : files.Has (shared cacheDir ++ [d.chars]) (.dir dirOwner))
    (hf : files.Has (unfinished cacheDir ++ [f.chars]) (.file content fileOwner)) :
    files.Renamable (unfinished cacheDir ++ [f.chars]) (shared cacheDir ++ [d.chars, f.chars]) ↔
      ∀ o, ¬ files.Has (shared cacheDir ++ [d.chars, f.chars]) (.dir o) := by
  constructor
  · rintro ⟨-, -, ⟨⟨q, x⟩, hx, rfl, hreplaced⟩, -⟩ o ho
    have hkind := (hreplaced _ ho List.prefix_rfl).2
    rw [Tree.Has.unique hx hf] at hkind
    cases hkind
  · intro hnone
    refine ⟨not_prefix_shared cacheDir d [f.chars] _, not_prefix_unfinished cacheDir d [f.chars] _,
      ⟨_, hf, rfl, ?_⟩, by simp, ⟨_, hd, by simp [List.dropLast_append_of_ne_nil], rfl⟩⟩
    rintro ⟨q, x⟩ hx ⟨r, rfl⟩
    by_cases hr : r = []
    · subst hr
      rw [List.append_nil] at hx
      refine ⟨by simp, ?_⟩
      cases x with
      | dir o => exact absurd hx (hnone o)
      | file content' o => rfl
    · obtain ⟨y, hy, hdir⟩ := Tree.dir_of_has hr hx
      cases y with
      | dir o => exact absurd hy (hnone o)
      | file content' o => cases hdir

/-- **What the second move does**, with the directory in the shared cache: the file arrives in it,
unless a directory of the same name is there. -/
theorem moved_file (hd : files.Has (shared cacheDir ++ [d.chars]) (.dir dirOwner))
    (hf : files.Has (unfinished cacheDir ++ [f.chars]) (.file content fileOwner)) {files' : Files}
    (hfiles' : files' = files.rename (unfinished cacheDir ++ [f.chars])
      (shared cacheDir ++ [d.chars, f.chars])) (owner owner' : Owner) :
    files'.Has (shared cacheDir ++ [d.chars]) (.dir owner) ∧
        files'.Has (shared cacheDir ++ [d.chars, f.chars]) (.file content owner') ↔
      dirOwner = owner ∧ fileOwner = owner' ∧
        ∀ o, ¬ files.Has (shared cacheDir ++ [d.chars, f.chars]) (.dir o) := by
  subst hfiles'
  have hiff := renamable_file_iff hd hf
  by_cases h : files.Renamable (unfinished cacheDir ++ [f.chars])
      (shared cacheDir ++ [d.chars, f.chars])
  · have hlong : ¬ shared cacheDir ++ [d.chars, f.chars] <+: shared cacheDir ++ [d.chars] := by
      intro hp
      have := hp.length_le
      simp at this
    have hfile := Tree.has_rename_append h (q := []) (x := .file content owner')
    rw [List.append_nil, List.append_nil] at hfile
    rw [Tree.has_rename_of_not_prefix h hlong, hfile]
    constructor
    · rintro ⟨⟨hdir, -⟩, hfile⟩
      refine ⟨?_, ?_, hiff.1 h⟩
      · injection hd.unique hdir
      · injection hf.unique hfile
    · rintro ⟨rfl, rfl, -⟩
      exact ⟨⟨hd, not_prefix_shared cacheDir d [] _⟩, hf⟩
  · -- the move fails, and the directory stays where the file should be
    rw [Tree.rename, dif_neg h]
    refine iff_of_false ?_ fun hnone => h (hiff.2 hnone.2.2)
    rintro ⟨-, hfile⟩
    refine h (hiff.2 fun o ho => ?_)
    cases hfile.unique ho

end

/-! ### The three messages -/

section

variable (cacheDir : Bytes) (childPid : ℤ) (loop : Loop) (ucred : Credentials)
  (hpid : ucred.pid = childPid) (e₁ e₂ e₃ : Surroundings)

include hpid

/-- The system calls for the three messages. -/
theorem calls_moveToSharedCache (d f : Name) {parentUid parentGid uid gid : ℕ}
    (hparentUid : parentUid ≤ 99999) (hparentGid : parentGid ≤ 99999) (huid : uid ≤ 99999)
    (hgid : gid ≤ 99999) :
    (rounds cacheDir childPid loop (((moveToSharedCache d.chars parentUid parentGid f.chars uid
        gid).map (·.datagram ucred)).zip [e₁, e₂, e₃])).flatMap Outcome.calls =
      .chown (cacheFiles cacheDir ++ d.chars) parentUid parentGid ::
        .chown (cacheFiles cacheDir ++ (d.chars ++ slash :: f.chars)) uid gid ::
        publishCalls cacheDir d.chars f.chars := by
  simp only [moveToSharedCache, List.map_cons, List.map_nil, List.zip_cons_cons, List.zip_nil_right,
    rounds, List.flatMap_cons, List.flatMap_nil, List.append_nil]
  rw [calls_chownMessage cacheDir childPid loop e₁ hpid (PathNotation.name d) (by simp) hparentUid
      hparentGid,
    calls_chownMessage cacheDir childPid _ e₂ hpid (PathNotation.nested d f) (by simp) huid hgid,
    calls_publishMessage cacheDir childPid _ e₃ hpid d f rfl]
  rfl

/-- **A published file has its owners exactly if it had them before**: for a directory and a file
among the unfinished files, and no such directory in the shared cache, after the three messages of
`MoveToSharedCache` the directory is in the shared cache with its owners and the file is in it with
its content and its owners, if and only if both had these owners already and no directory was in the
way of the file. -/
theorem published_iff (d f : Name) {parentUid parentGid uid gid : ℕ}
    (hparentUid : parentUid ≤ 99999) (hparentGid : parentGid ≤ 99999) (huid : uid ≤ 99999)
    (hgid : gid ≤ 99999) {files : Files} {dirOwner fileOwner : Owner} {content : Bytes}
    (hd : files.Has (pathOf (cacheInprogress cacheDir ++ d.chars)) (.dir dirOwner))
    (hf : files.Has (pathOf (cacheInprogress cacheDir ++ f.chars)) (.file content fileOwner))
    (hnew : ∀ x, ¬ files.Has (pathOf (cacheFiles cacheDir ++ d.chars)) x) :
    ((sharedCache cacheDir childPid loop ucred [e₁, e₂, e₃] files d.chars parentUid parentGid
          f.chars uid gid).Has (pathOf (cacheFiles cacheDir ++ d.chars))
        (.dir ⟨parentUid, parentGid⟩) ∧
      (sharedCache cacheDir childPid loop ucred [e₁, e₂, e₃] files d.chars parentUid parentGid
          f.chars uid gid).Has (pathOf (cacheFiles cacheDir ++ (d.chars ++ slash :: f.chars)))
        (.file content ⟨uid, gid⟩)) ↔
    dirOwner = ⟨parentUid, parentGid⟩ ∧ fileOwner = ⟨uid, gid⟩ ∧
      ∀ o, ¬ files.Has (pathOf (cacheInprogress cacheDir ++ (d.chars ++ slash :: f.chars)))
        (.dir o) := by
  rw [pathOf_cacheInprogress, pathOf_name] at hd hf
  rw [pathOf_cacheFiles, pathOf_name] at hnew
  have hnewFile : ∀ x, ¬ files.Has (shared cacheDir ++ [d.chars, f.chars]) x := by
    intro x hx
    have hin : files.Has (shared cacheDir ++ [d.chars] ++ [f.chars]) x := by
      rwa [List.append_assoc]
    obtain ⟨y, hy, -⟩ := hin.parent
    exact hnew y hy
  obtain ⟨hin, hgone, hfile⟩ := moved_directory hd hf hnew rfl
  have hdir := hin [] (.dir dirOwner)
  rw [List.append_nil, List.append_nil] at hdir
  -- the owners are set where nothing is, the directory is moved, and its old place is free
  have hcalls : sharedCache cacheDir childPid loop ucred [e₁, e₂, e₃] files d.chars parentUid
      parentGid f.chars uid gid =
      (files.rename (unfinished cacheDir ++ [d.chars]) (shared cacheDir ++ [d.chars])).rename
        (unfinished cacheDir ++ [f.chars]) (shared cacheDir ++ [d.chars, f.chars]) := by
    rw [sharedCache, filesAfter, calls_moveToSharedCache cacheDir childPid loop ucred hpid e₁ e₂ e₃
      d f hparentUid hparentGid huid hgid]
    simp only [publishCalls, List.foldl_cons, List.foldl_nil, Syscall.apply, List.append_assoc,
      List.singleton_append, pathOf_cacheFiles, pathOf_cacheInprogress, pathOf_name, pathOf_nested]
    rw [Tree.chown_eq_self hnew, Tree.chown_eq_self hnewFile, Tree.rmdir_eq_self hgone]
  rw [hcalls, pathOf_cacheFiles, pathOf_cacheFiles, pathOf_cacheInprogress, pathOf_name,
    pathOf_nested, moved_file (hdir.2 hd) hfile rfl]
  have hway : ∀ o, files.Has (unfinished cacheDir ++ [d.chars, f.chars]) (.dir o) ↔
      (files.rename (unfinished cacheDir ++ [d.chars]) (shared cacheDir ++ [d.chars])).Has
        (shared cacheDir ++ [d.chars, f.chars]) (.dir o) := by
    intro o
    have h := hin [f.chars] (.dir o)
    rw [List.append_assoc, List.append_assoc] at h
    exact h.symm
  simp only [hway]

end

/-- A directory `aB3dE5` and a file `012345` among the unfinished files, that belong to the user of
the cache process. -/
def Files.downloaded : Files where
  entries :=
    [([], .dir ⟨0, 0⟩), ([ascii "cache"], .dir ⟨0, 0⟩),
      ([ascii "cache", ascii "files"], .dir ⟨0, 0⟩),
      ([ascii "cache", ascii "files", ascii "unfinished"], .dir ⟨0, 0⟩),
      ([ascii "cache", ascii "files", ascii "unfinished", ascii "aB3dE5"], .dir ⟨70, 71⟩),
      ([ascii "cache", ascii "files", ascii "unfinished", ascii "012345"],
        .file (ascii "content") ⟨70, 71⟩)]
  unique := by decide
  parent := by decide

/-- The files after they have been published for a user. -/
def Files.publishedFor (uid gid : ℕ) : Files :=
  sharedCache (ascii "/cache") 42 Loop.idle ⟨42, 0, 0⟩ [.empty, .empty, .empty] Files.downloaded
    Name.sample.chars uid gid Name.digits.chars uid gid

/-- The user of the cache process gets a file published that belongs to it. -/
theorem published_own :
    (Files.publishedFor 70 71).Has (pathOf (cacheFiles (ascii "/cache") ++ Name.sample.chars))
        (.dir ⟨70, 71⟩) ∧
      (Files.publishedFor 70 71).Has
        (pathOf (cacheFiles (ascii "/cache") ++ (Name.sample.chars ++ slash :: Name.digits.chars)))
        (.file (ascii "content") ⟨70, 71⟩) :=
  (published_iff (ascii "/cache") 42 Loop.idle ⟨42, 0, 0⟩ rfl .empty .empty .empty Name.sample
    Name.digits (by decide) (by decide) (by decide) (by decide)
    (show Tree.Has Files.downloaded _ (.dir ⟨70, 71⟩) by decide)
    (show Tree.Has Files.downloaded _ (.file (ascii "content") ⟨70, 71⟩) by decide)
    (Tree.not_has_of_not_mem (by decide))).2
    ⟨rfl, rfl, fun _ => Tree.not_has_of_not_mem (by decide) _⟩

/-- **Another user does not get it**: the directory and the file are in the shared cache and belong
to the user of the cache process. -/
theorem published_with_old_owners :
    Files.downloaded.Has (pathOf (cacheInprogress (ascii "/cache") ++ Name.sample.chars))
        (.dir ⟨70, 71⟩) ∧
      Files.downloaded.Has (pathOf (cacheInprogress (ascii "/cache") ++ Name.digits.chars))
        (.file (ascii "content") ⟨70, 71⟩) ∧
      (∀ x, ¬ Files.downloaded.Has (pathOf (cacheFiles (ascii "/cache") ++ Name.sample.chars)) x) ∧
      ¬ (Files.publishedFor 1001 1002).Has
        (pathOf (cacheFiles (ascii "/cache") ++ Name.sample.chars)) (.dir ⟨1001, 1002⟩) ∧
      (Files.publishedFor 1001 1002).Has
        (pathOf (cacheFiles (ascii "/cache") ++ (Name.sample.chars ++ slash :: Name.digits.chars)))
        (.file (ascii "content") ⟨70, 71⟩) :=
  ⟨by decide, by decide, Tree.not_has_of_not_mem (by decide), by decide, by decide⟩

end AwsS3fs.Grant
