/-
**Cleaned paths.**

`CleanPath` (`s3if.c`) removes slashes behind slashes and at the end of a path.  Behind a backslash
its copy ends, since `escaped` is never reset, and its result names the objects that `S3Unlink`,
`S3Mkdir` and `S3Rmdir` change.

Main definitions:

* `AwsS3fs.cleanName`, `AwsS3fs.IsClean` — the path as it should be cleaned, and a path that needs
  no cleaning;
* `AwsS3fs.NamedObject` — `CleanPath` cleans the path, and the three functions address the object
  that is named by it, or its secret file;
* `AwsS3fs.NothingBehindBackslash`, `AwsS3fs.AddressedExactly` — where that is so.

Main results:

* `AwsS3fs.cleanPath_eq_cleanName_iff` — **when a path is cleaned** as it should be;
* `AwsS3fs.cleanPath_secretFile` — the secret file of a clean path without backslashes;
* `AwsS3fs.namedObject_iff` — **exactly when the named object is addressed**.
-/

import AwsS3fs.EmptyDirectories
import AwsS3fs.PathSearch
import AwsS3fs.Paths
import Mathlib.Data.List.Destutter

set_option relaxedAutoImplicit false
set_option autoImplicit false

namespace AwsS3fs

open CLib

/-! ### Clean paths -/

/-- Two bytes in a row that are not both slashes. -/
def NotBothSlashes (left right : UInt8) : Prop := ¬ (left = 47 ∧ right = 47)

instance : DecidableRel NotBothSlashes := fun _ _ => inferInstanceAs (Decidable (¬ _))

/-- **A path as it should be cleaned**: one slash for each run of slashes, and none at the end
unless there is nothing else. -/
def cleanName (path : Bytes) : Bytes :=
  if path.all (· == 47) then [47]
  else (path.destutter NotBothSlashes).rdropWhile (· == 47)

/-- A path that needs no cleaning. -/
def IsClean (path : Bytes) : Prop := cleanName path = path

instance (path : Bytes) : Decidable (IsClean path) := inferInstanceAs (Decidable (_ = _))

/-- Behind a backslash there is nothing but slashes. -/
def NothingBehindBackslash (path : Bytes) : Prop :=
  ∀ before behind, path = before ++ 92 :: behind → ∀ ch ∈ behind, ch = 47

/-- **The named object is addressed**: the path is cleaned as it should be, and of a clean path just
the object with that name is deleted, its secret file is written, and these two are removed, the
secret file first. -/
structure NamedObject (path : Bytes) : Prop where
  cleaned : cleanPath path = cleanName path
  unlink : IsClean path → ∀ (keyOf : Bytes → Bytes) (s : ListingState) (answer : WriteAnswer),
    (s.s3Unlink keyOf answer path).2.bucket = s.deleteObject keyOf answer path
  mkdir : IsClean path → ∀ (keyOf : Bytes → Bytes) (s : ListingState) (w : UpdateWorld)
    (done : Bool) (mode : UInt32), (s.s3Mkdir keyOf w done path mode).2.bucket =
      s.putObject keyOf ⟨w.put, done⟩ (path ++ isS3DirectoryFile)
  rmdir : IsClean path → ∀ (keyOf : Bytes → Bytes) (s : ListingState) (w : RmdirWorld),
    (s.s3Rmdir keyOf w path).deletes.map (·.1) <+: [path ++ isS3DirectoryFile, path]

/-- A path with backslashes at most where they do not matter; the root has a secret file of its
own. -/
structure AddressedExactly (path : Bytes) : Prop where
  clean : IsClean path → 92 ∉ path ∧ path ≠ [47]
  unclean : ¬ IsClean path → NothingBehindBackslash path

/-! ### The loop -/

theorem notBothSlashes_left {left : UInt8} (h : left ≠ 47) (right : UInt8) :
    NotBothSlashes left right := fun hboth => h hboth.1

theorem notBothSlashes_right (left : UInt8) {right : UInt8} (h : right ≠ 47) :
    NotBothSlashes left right := fun hboth => h hboth.2

theorem not_notBothSlashes : ¬ NotBothSlashes 47 47 := fun h => h ⟨rfl, rfl⟩

/-- The loop removes what should be removed, if there is no backslash. -/
theorem cons_cleanSlashes {path : Bytes} (h : 92 ∉ path) (ch : UInt8) :
    ch :: cleanSlashes (decide (ch = 47)) path = path.destutter' NotBothSlashes ch := by
  induction path generalizing ch with
  | nil => rfl
  | cons next path ih =>
      obtain ⟨hnext, hpath⟩ := not_or.1 (mt List.mem_cons.2 h)
      by_cases hslash : next = 47
      · subst hslash
        by_cases hch : ch = 47
        · subst hch
          rw [List.destutter'_cons_neg _ not_notBothSlashes]
          exact ih hpath 47
        · rw [List.destutter'_cons_pos _ (notBothSlashes_left hch 47), ← ih hpath 47,
            decide_eq_false hch]
          rfl
      · rw [List.destutter'_cons_pos _ (notBothSlashes_right ch hslash), ← ih hpath next,
          decide_eq_false hslash]
        simp only [cleanSlashes, if_neg hslash, if_neg (Ne.symm hnext)]

/-- The loop goes on behind a character other than slash and backslash. -/
theorem cleanSlashes_append_cons {before : Bytes} (h : 92 ∉ before) {ch : UInt8} (hch : ch ≠ 47)
    (slashFound : Bool) (behind : Bytes) :
    cleanSlashes slashFound (before ++ ch :: behind) =
      cleanSlashes slashFound before ++ ch ::
        if ch = 92 then [] else cleanSlashes false behind := by
  induction before generalizing slashFound with
  | nil =>
      simp only [List.nil_append, cleanSlashes, if_neg hch]
  | cons c before ih =>
      obtain ⟨hc, hbefore⟩ := not_or.1 (mt List.mem_cons.2 h)
      rw [List.cons_append, cleanSlashes, cleanSlashes]
      by_cases hslash : c = 47
      · rw [if_pos hslash, if_pos hslash, ih hbefore]
        split
        · rfl
        · rfl
      · rw [if_neg hslash, if_neg hslash, if_neg (Ne.symm hc), if_neg (Ne.symm hc), ih hbefore]
        rfl

/-! ### Removing runs of slashes -/

theorem destutter'_append_cons {before : Bytes} {ch : UInt8} (hch : ch ≠ 47) (first : UInt8)
    (behind : Bytes) :
    (before ++ ch :: behind).destutter' NotBothSlashes first =
      before.destutter' NotBothSlashes first ++ behind.destutter' NotBothSlashes ch := by
  induction before generalizing first with
  | nil =>
      rw [List.nil_append, List.destutter'_cons_pos _ (notBothSlashes_right first hch)]
      rfl
  | cons c before ih =>
      rw [List.cons_append, List.destutter'_cons, List.destutter'_cons, ih, ih]
      split
      · rfl
      · rfl

/-- The first character stays. -/
theorem exists_destutter'_eq (first : UInt8) (path : Bytes) :
    ∃ rest, path.destutter' NotBothSlashes first = first :: rest := by
  induction path generalizing first with
  | nil => exact ⟨[], rfl⟩
  | cons ch path ih =>
      rw [List.destutter'_cons]
      split
      · exact ⟨_, rfl⟩
      · exact ih first

/-- Only slashes are removed. -/
theorem mem_of_destutter'_eq {ch : UInt8} (hch : ch ≠ 47) {first : UInt8} {path rest : Bytes}
    (h : path.destutter' NotBothSlashes first = first :: rest) : ch ∈ rest ↔ ch ∈ path := by
  induction path generalizing first rest with
  | nil =>
      obtain rfl : [] = rest := (List.cons.inj h).2
      exact Iff.rfl
  | cons c path ih =>
      rw [List.destutter'_cons] at h
      split at h
      case isTrue =>
        obtain ⟨rest', hrest'⟩ := exists_destutter'_eq c path
        obtain rfl : c :: rest' = rest := hrest'.symm.trans (List.cons.inj h).2
        rw [List.mem_cons, List.mem_cons, ih hrest']
      case isFalse hboth =>
        obtain ⟨-, rfl⟩ := not_not.1 hboth
        rw [ih h, List.mem_cons, or_iff_right hch]

/-- There are only slashes if there were only slashes. -/
theorem slashes_of_destutter'_eq {first : UInt8} {path rest : Bytes}
    (h : path.destutter' NotBothSlashes first = first :: rest) :
    (∀ ch ∈ rest, ch = 47) ↔ ∀ ch ∈ path, ch = 47 := by
  constructor
  · intro hall ch hmem
    by_contra hch
    exact hch (hall ch ((mem_of_destutter'_eq hch h).2 hmem))
  · intro hall ch hmem
    by_contra hch
    exact hch (hall ch ((mem_of_destutter'_eq hch h).1 hmem))

/-! ### Slashes at the end -/

theorem stripTrailingSlash_of_getLast? {name : Bytes} (h : name.getLast? ≠ some 47) :
    stripTrailingSlash name = name := by
  cases name with
  | nil => rfl
  | cons ch name =>
      rw [stripTrailingSlash, List.rdropWhile_eq_self_iff.2]
      intro hne hslash
      rw [List.getLast?_cons_of_ne_nil hne, List.getLast?_eq_some_getLast hne] at h
      exact h (congrArg some (by simpa using hslash))

/-- The first character only counts if there is nothing else. -/
theorem stripTrailingSlash_cons {ch : UInt8} {name : Bytes} (h : ¬ ∀ c ∈ name, c = 47) :
    stripTrailingSlash (ch :: name) = (ch :: name).rdropWhile (· == 47) := by
  have hne : name.rdropWhile (· == 47) ≠ [] := by
    rw [Ne, List.rdropWhile_eq_nil_iff]
    simpa using h
  have hself : (ch :: name.rdropWhile (· == 47)).rdropWhile (· == 47) =
      ch :: name.rdropWhile (· == 47) := by
    rw [List.rdropWhile_eq_self_iff]
    intro _
    rw [List.getLast_cons hne]
    exact List.rdropWhile_last_not _ _ hne
  have hsplit : ch :: name =
      (ch :: name.rdropWhile (· == 47)) ++ name.rtakeWhile (· == 47) := by
    rw [List.cons_append, List.rdropWhile_append_rtakeWhile]
  rw [stripTrailingSlash]
  conv_rhs => rw [hsplit]
  rw [rdropWhile_append_of_forall fun c hc => List.mem_rtakeWhile_imp hc, hself]

/-- A path as it should be cleaned, with the function for the slashes at its end. -/
theorem cleanName_cons (path : Bytes) :
    cleanName (47 :: path) = stripTrailingSlash (path.destutter' NotBothSlashes 47) := by
  obtain ⟨rest, hrest⟩ := exists_destutter'_eq 47 path
  have hmem : (∀ c ∈ rest, c = 47) ↔ (47 :: path).all (· == 47) = true := by
    rw [slashes_of_destutter'_eq hrest]
    simp
  rw [cleanName, List.destutter_cons', hrest]
  by_cases hall : ∀ c ∈ rest, c = 47
  · have hnil : rest.rdropWhile (· == 47) = [] := by
      rw [List.rdropWhile_eq_nil_iff]
      simpa using hall
    rw [if_pos (hmem.1 hall), stripTrailingSlash, hnil]
  · rw [if_neg (mt hmem.2 hall), stripTrailingSlash_cons hall]

/-! ### When a path is cleaned -/

/-- **A path without backslashes is cleaned.** -/
theorem cleanPath_eq_cleanName {path : Bytes} (h : 92 ∉ path) :
    cleanPath (47 :: path) = cleanName (47 :: path) := by
  have hloop : cleanSlashes false (47 :: path) = 47 :: cleanSlashes true path := rfl
  rw [cleanPath, hloop, cleanName_cons, ← cons_cleanSlashes h]
  rfl

/-- The first backslash, and what the loop makes of the path. -/
theorem cleanPath_backslash {before : Bytes} (h : 92 ∉ before) (behind : Bytes) :
    cleanPath (47 :: before ++ 92 :: behind) =
      before.destutter' NotBothSlashes 47 ++ [92] := by
  have hbefore : 92 ∉ 47 :: before := by simpa using h
  have hloop : cleanSlashes false (47 :: before) = before.destutter' NotBothSlashes 47 := by
    rw [← cons_cleanSlashes h]
    rfl
  rw [cleanPath, cleanSlashes_append_cons hbefore (by decide), if_pos rfl, hloop,
    stripTrailingSlash_of_getLast? (by simp)]

/-- What is behind the first backslash of a path stays in the path as it should be cleaned. -/
theorem cleanName_backslash (before behind : Bytes) :
    cleanName (47 :: before ++ 92 :: behind) = before.destutter' NotBothSlashes 47 ++ [92] ↔
      ∀ ch ∈ behind, ch = 47 := by
  obtain ⟨front, hfront⟩ := exists_destutter'_eq 47 before
  obtain ⟨rest, hrest⟩ := exists_destutter'_eq 92 behind
  rw [List.cons_append, cleanName_cons, destutter'_append_cons (by decide), hfront, hrest,
    ← slashes_of_destutter'_eq hrest, List.cons_append, stripTrailingSlash, List.cons_append,
    List.cons_inj_right]
  constructor
  · intro h
    have hsplit : (front ++ 92 :: rest).rdropWhile (· == 47) ++
        (front ++ 92 :: rest).rtakeWhile (· == 47) = front ++ 92 :: rest :=
      List.rdropWhile_append_rtakeWhile
    rw [h, List.append_assoc, List.append_cancel_left_eq, List.singleton_append,
      List.cons_inj_right] at hsplit
    intro ch hch
    rw [← hsplit] at hch
    exact beq_iff_eq.1 (List.mem_rtakeWhile_imp (p := (· == 47)) hch)
  · intro h
    have hslashes : ∀ ch ∈ rest, (ch == 47) = true := fun ch hch => beq_iff_eq.2 (h ch hch)
    rw [← List.singleton_append, ← List.append_assoc, rdropWhile_append_of_forall hslashes,
      List.rdropWhile_concat_neg _ _ _ (by decide)]

/-- **When a path is cleaned** as it should be: when there is no name behind a backslash. -/
theorem cleanPath_eq_cleanName_iff {path : Bytes} (habsolute : path.head? = some 47) :
    cleanPath path = cleanName path ↔ NothingBehindBackslash path := by
  obtain ⟨rest, rfl⟩ : ∃ rest, path = 47 :: rest := List.head?_eq_some_iff.1 habsolute
  by_cases hmem : 92 ∈ rest
  · obtain ⟨before, behind, rfl, hbefore⟩ := List.eq_append_cons_of_mem hmem
    rw [← List.cons_append, cleanPath_backslash hbefore, eq_comm, cleanName_backslash]
    constructor
    · intro h before' behind' heq
      have hbehind : 92 ∉ behind := fun hback => absurd (h 92 hback) (by decide)
      have hfirst : 92 ∉ 47 :: before := by simpa using hbefore
      obtain ⟨-, -, rfl⟩ := (List.append_cons_inj_of_notMem hfirst hbehind).1 heq
      exact h
    · intro h
      exact h _ _ rfl
  · refine iff_of_true (cleanPath_eq_cleanName hmem) fun before behind heq => ?_
    have hback : 92 ∈ 47 :: rest := heq ▸ List.mem_append_right _ List.mem_cons_self
    exact absurd ((List.mem_cons.1 hback).resolve_left (by decide)) hmem

/-! ### Clean paths and their secret files -/

/-- A clean path ends with a slash only at the root. -/
theorem IsClean.getLast? {path : Bytes} (h : IsClean path) (hroot : path ≠ [47]) :
    path.getLast? ≠ some 47 := by
  rw [IsClean, cleanName] at h
  split at h
  · exact absurd h.symm hroot
  · intro hlast
    by_cases hne : path = []
    · rw [hne] at hlast
      cases hlast
    · rw [← h] at hne hlast
      rw [List.getLast?_eq_some_getLast hne, Option.some_inj] at hlast
      exact List.rdropWhile_last_not _ _ hne (beq_iff_eq.2 hlast)

/-- **The secret file of a clean path**, as `S3Rmdir` names it. -/
theorem cleanPath_secretFile {path : Bytes} (habsolute : path.head? = some 47)
    (hclean : IsClean path) (hback : 92 ∉ path) (hroot : path ≠ [47]) :
    cleanPath (ListingState.secretFile path) = path ++ isS3DirectoryFile := by
  obtain ⟨rest, rfl⟩ : ∃ rest, path = 47 :: rest := List.head?_eq_some_iff.1 habsolute
  have hlast := hclean.getLast? hroot
  obtain ⟨before, ch, hpath⟩ : ∃ before ch, 47 :: rest = before ++ [ch] :=
    ⟨_, _, (List.dropLast_append_getLast (List.cons_ne_nil 47 rest)).symm⟩
  have hself : cleanPath (47 :: rest) = 47 :: rest := by
    rw [cleanPath_eq_cleanName fun hmem => hback (List.mem_cons_of_mem _ hmem)]
    exact hclean
  rw [hpath] at hback hlast hself ⊢
  obtain ⟨hbefore, hch⟩ : 92 ∉ before ∧ ch ≠ 92 := by
    simpa [eq_comm] using hback
  have hslash : ch ≠ 47 := by simpa using hlast
  -- the loop copies the path as it is, and removes one slash in front of the file
  have hloop : ∀ behind, cleanSlashes false (before ++ ch :: behind) =
      before ++ ch :: cleanSlashes false behind := by
    intro behind
    have hnil := cleanSlashes_append_cons hbefore hslash false []
    rw [cleanPath, hnil, if_neg hch, cleanSlashes, stripTrailingSlash_of_getLast?
      (by simpa using hslash), List.append_cancel_right_eq] at hself
    rw [cleanSlashes_append_cons hbefore hslash, if_neg hch, hself]
  have hsecret : cleanSlashes false ([47] ++ isS3DirectoryFile) = isS3DirectoryFile := by decide
  have hend : (before ++ ch :: isS3DirectoryFile).getLast? ≠ some 47 := by
    rw [List.getLast?_append_of_ne_nil _ (List.cons_ne_nil _ _),
      List.getLast?_cons_of_ne_nil (by decide)]
    decide
  rw [ListingState.secretFile, List.append_assoc, List.append_assoc, List.singleton_append,
    cleanPath, hloop, hsecret, stripTrailingSlash_of_getLast? hend, List.append_assoc]
  rfl

/-- A directory in the caches of `s3if.c` that is known to be empty. -/
def emptyDirectoryState (path : Bytes) : ListingState where
  bucket := []
  cache := [some ⟨cachedName path, 2, []⟩]
  stats := [⟨normalizePath path, some openDirectory⟩]

/-- An empty directory is removed, and its secret file comes first. -/
theorem deletes_emptyDirectory (keyOf : Bytes → Bytes) {path : Bytes}
    (hself : cleanPath path = path) (hsecret : ¬ isS3DirectoryFile <:+ normalizePath path) :
    (((emptyDirectoryState path).s3Rmdir keyOf openBucket path).deletes.map (·.1)).head? =
      some (cleanPath (ListingState.secretFile path)) := by
  have hfind : (emptyDirectoryState path).stats.findStr (normalizePath path) =
      some ⟨normalizePath path, some openDirectory⟩ :=
    List.find?_cons_of_pos (decide_eq_true rfl)
  have hdistinct : (emptyDirectoryState path).stats.filenames.Nodup :=
    List.nodup_singleton (normalizePath path)
  have hstats : statsDirectory openBucket.toStatWorld (emptyDirectoryState path).stats
      (cleanPath path) = true := by
    rw [statsDirectory, hself, s3FileStat_of_hit hdistinct hsecret hfind]
    rfl
  have hempty : isDirectoryEmpty (s3ReadDir (emptyDirectoryState path).bucket
      (emptyDirectoryState path).cache openBucket.listed (cleanPath path) 4) = true := by
    rw [hself]
    rcases s3ReadDir_cases (emptyDirectoryState path).bucket (emptyDirectoryState path).cache
      openBucket.listed path 4 with ⟨entry, hentry, -, hread⟩ | ⟨hnot, -⟩
    · obtain rfl := Option.some.inj (List.mem_singleton.1 hentry)
      rw [hread]
      rfl
    · exact absurd (List.mem_singleton_self (cachedName path)) hnot
  rcases s3Rmdir_cases keyOf (emptyDirectoryState path) openBucket path with
    ⟨hnot, -⟩ | ⟨-, hrmdir⟩
  · rw [hstats] at hnot
    cases hnot
  · rw [hrmdir, if_pos hempty, ListingState.removeDirectory, hself]
    split
    · rfl
    · rfl

/-- What `S3Rmdir` deletes is the secret file and then the directory. -/
theorem deletes_s3Rmdir (keyOf : Bytes → Bytes) (s : ListingState) (w : RmdirWorld)
    (path : Bytes) : (s.s3Rmdir keyOf w path).deletes.map (·.1) <+:
      [cleanPath (ListingState.secretFile (cleanPath path)), cleanPath path] := by
  rcases s3Rmdir_cases keyOf s w path with ⟨-, status, -, hrmdir⟩ | ⟨-, hrmdir⟩
  · rw [hrmdir]
    exact List.nil_prefix
  · rw [hrmdir]
    split
    · rw [ListingState.removeDirectory]
      split
      · exact List.prefix_rfl
      · exact List.prefix_append _ _
    · exact List.nil_prefix

/-! ### The named object -/

/-- A path with a backslash at its end is not that of a secret file. -/
theorem not_isSuffix_backslash {path : Bytes} (h : path.getLast? = some 92) :
    ¬ isS3DirectoryFile <:+ normalizePath path := by
  obtain ⟨slashes, hslashes⟩ := List.dropWhile_suffix (l := path) (· == 47)
  have hne : path.dropWhile (· == 47) ≠ [] := by
    rw [Ne, List.dropWhile_eq_nil_iff]
    intro hall
    exact absurd (hall 92 (List.mem_of_getLast? h)) (by decide)
  have hlast : (47 :: path.dropWhile (· == 47)).getLast? = some 92 := by
    rw [List.getLast?_cons_of_ne_nil hne, ← List.getLast?_append_of_ne_nil slashes hne, hslashes, h]
  have hname : normalizePath path = 47 :: path.dropWhile (· == 47) :=
    stripTrailingSlash_of_getLast? (by rw [hlast]; decide)
  rintro ⟨dir, hdir⟩
  rw [← hname, ← hdir, List.getLast?_append_of_ne_nil _ (by decide)] at hlast
  revert hlast
  decide

/-- A clean path with a backslash has it at its end. -/
theorem exists_eq_concat_backslash {path : Bytes} (hclean : IsClean path)
    (hbehind : NothingBehindBackslash path) (hmem : 92 ∈ path) :
    ∃ before, path = before ++ [92] ∧ 92 ∉ before := by
  obtain ⟨before, behind, rfl, hbefore⟩ := List.eq_append_cons_of_mem hmem
  have hroot : before ++ 92 :: behind ≠ [47] := by
    rintro heq
    rw [heq] at hmem
    revert hmem
    decide
  have hlast := hclean.getLast? hroot
  rw [List.getLast?_append_of_ne_nil _ (List.cons_ne_nil _ _)] at hlast
  cases behind using List.reverseRecOn with
  | nil => exact ⟨before, rfl, hbefore⟩
  | append_singleton behind ch =>
      obtain rfl : ch = 47 := hbehind _ _ rfl ch (by simp)
      rw [← List.cons_append, List.getLast?_concat] at hlast
      exact absurd rfl hlast

/-- Of a clean path with a backslash, `S3Rmdir` deletes nothing but the object itself. -/
theorem cleanPath_secretFile_backslash {before : Bytes} (hbefore : 92 ∉ before) :
    cleanPath (ListingState.secretFile (before ++ [92])) = cleanPath (before ++ [92]) := by
  rw [ListingState.secretFile, List.append_assoc, List.append_assoc, List.singleton_append,
    cleanPath, cleanPath, cleanSlashes_append_cons hbefore (by decide),
    cleanSlashes_append_cons hbefore (by decide), if_pos rfl, if_pos rfl]

/-- **Exactly when the named object is addressed.** -/
theorem namedObject_iff {path : Bytes} (habsolute : path.head? = some 47) :
    NamedObject path ↔ AddressedExactly path := by
  constructor
  · intro h
    have hbehind := (cleanPath_eq_cleanName_iff habsolute).1 h.cleaned
    refine ⟨fun hclean => ?_, fun _ => hbehind⟩
    have hself : cleanPath path = path := h.cleaned.trans hclean
    have hfirst : ¬ isS3DirectoryFile <:+ normalizePath path →
        cleanPath (ListingState.secretFile path) = path ++ isS3DirectoryFile := by
      intro hsecret
      have hhead := deletes_emptyDirectory id hself hsecret
      obtain ⟨rest, hrest⟩ := h.rmdir hclean id (emptyDirectoryState path) openBucket
      cases hdeletes :
          ((emptyDirectoryState path).s3Rmdir id openBucket path).deletes.map (·.1) with
      | nil =>
          rw [hdeletes] at hhead
          cases hhead
      | cons deleted deletes =>
          rw [hdeletes, List.head?_cons, Option.some_inj] at hhead
          rw [hdeletes, List.cons_append] at hrest
          exact hhead.symm.trans (List.cons.inj hrest).1
    constructor
    · intro hmem
      obtain ⟨before, rfl, hbefore⟩ := exists_eq_concat_backslash hclean hbehind hmem
      have hsecret := hfirst (not_isSuffix_backslash List.getLast?_concat)
      rw [cleanPath_secretFile_backslash hbefore, hself] at hsecret
      exact absurd (List.self_eq_append_right.1 hsecret) (by decide)
    · rintro rfl
      revert hfirst
      decide
  · intro h
    have hcleaned : cleanPath path = cleanName path := by
      rw [cleanPath_eq_cleanName_iff habsolute]
      by_cases hclean : IsClean path
      · intro before behind heq
        exact absurd (heq ▸ List.mem_append_right _ List.mem_cons_self) (h.clean hclean).1
      · exact h.unclean hclean
    have hself : IsClean path → cleanPath path = path := fun hclean => hcleaned.trans hclean
    constructor
    case cleaned => exact hcleaned
    case unlink =>
      intro hclean keyOf s answer
      simp only [ListingState.s3Unlink, hself hclean]
    case mkdir =>
      intro hclean keyOf s w done mode
      simp only [ListingState.s3Mkdir, hself hclean]
    case rmdir =>
      intro hclean keyOf s w
      obtain ⟨hback, hroot⟩ := h.clean hclean
      have hdeletes := deletes_s3Rmdir keyOf s w path
      rwa [hself hclean, cleanPath_secretFile habsolute hclean hback hroot] at hdeletes

/-- A clean path without backslashes. -/
theorem namedObject_readme :
    (NamedObject (ascii "/docs/readme") ↔ AddressedExactly (ascii "/docs/readme")) ∧
      AddressedExactly (ascii "/docs/readme") :=
  ⟨namedObject_iff rfl, fun _ => by decide, fun h => absurd (by decide) h⟩

/-- **The wrong object is deleted**: for `/a\b`, `S3Unlink` deletes `/a\`. -/
theorem not_namedObject_backslash :
    ¬ ∀ path : Bytes, path.head? = some 47 → (0 : UInt8) ∉ path → NamedObject path := by
  intro h
  have hunlink := (h (ascii "/a\\b") rfl (by decide)).unlink (by decide) id
    ⟨[ascii "/a\\", ascii "/a\\b"], [], []⟩ ⟨some 204, true⟩
  revert hunlink
  decide

end AwsS3fs
