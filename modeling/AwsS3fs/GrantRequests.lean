/-
**What the privileged process can be made to do.**

The memory a handler reads is under the control of the unprivileged process: the request buffer
holds what was sent last, on top of what was sent before.  Two questions about it are answered
here.  *Where* can a handler act: on nothing but names of six alphanumerics directly in the two
cache directories, or in a directory with such a name there, whatever the memory holds.  *When*
does it act: on a request in the notation `uid:gid:dir/name` and its relatives, with some latitude.

The latitude is of two kinds.  Separators are skipped generously before every field, and what
follows the last field is not looked at; this the handlers mean to do.  On top of that a number may
have any number of digits, a name may be cut after its sixth character, and a request whose string
has ended before its last field is completed from the bytes behind the terminator.  The statements
below promise the first kind and say nothing about the second.

Main definitions:

* `AwsS3fs.Grant.CachePath` — the paths inside the cache;
* `AwsS3fs.Grant.ChownNotation`, `AwsS3fs.Grant.PublishNotation`, `AwsS3fs.Grant.ChunkNotation` —
  the exact notation of the three requests;
* `AwsS3fs.Grant.ChownText`, `AwsS3fs.Grant.PublishText`, `AwsS3fs.Grant.ChunkText` — the same with
  separators skipped and trailing text ignored.

Main results:

* `AwsS3fs.Grant.paths_confined` — **every path a handler hands to the system is in the cache**;
* `AwsS3fs.Grant.handlers_accept` — **the handlers act on every request so written, with exactly
  the values written, and only when the fields are there**;
* `AwsS3fs.Grant.chown_accepts_leading_space` — the exact notation is not required.
-/

import AwsS3fs.Grant

set_option relaxedAutoImplicit false
set_option autoImplicit false

namespace AwsS3fs.Grant

open CLib

/-! ### Where a handler can act -/

/-- The paths inside the cache: six alphanumerics in one of the two directories, or six more in a
directory so named. -/
inductive CachePath (cacheDir : Bytes) : Bytes → Prop
  | name {root : Bytes} (hroot : root = cacheFiles cacheDir ∨ root = cacheInprogress cacheDir)
      (n : Name) : CachePath cacheDir (root ++ n.chars)
  | nested {root : Bytes} (hroot : root = cacheFiles cacheDir ∨ root = cacheInprogress cacheDir)
      (d n : Name) : CachePath cacheDir (root ++ d.chars ++ [slash] ++ n.chars)

/-- A path read from memory is one inside the cache files. -/
theorem PathField.cachePath {m path r : Bytes} {n : ℕ} (cacheDir : Bytes)
    (h : PathField m path n r) : CachePath cacheDir (cacheFiles cacheDir ++ path) := by
  cases h with
  | name k _ _ => exact CachePath.name (Or.inl rfl) k
  | nested d k _ _ =>
      have h : CachePath cacheDir (cacheFiles cacheDir ++ d.chars ++ [slash] ++ k.chars) :=
        CachePath.nested (Or.inl rfl) d k
      simpa using h

theorem ChownRequest.cachePath {m path : Bytes} {u g : ℤ} (cacheDir : Bytes)
    (h : ChownRequest m u g path) : CachePath cacheDir (cacheFiles cacheDir ++ path) := by
  cases h with
  | intro _ _ hpath _ _ => exact hpath.cachePath cacheDir

theorem ChunkRequest.cachePath {m path : Bytes} {part : ℤ} {dest : Name} (cacheDir : Bytes)
    (h : ChunkRequest m part path dest) : CachePath cacheDir (cacheFiles cacheDir ++ path) := by
  cases h with
  | intro _ hpath _ _ _ => exact hpath.cachePath cacheDir

/-- Copying a part hands no path to the system but those of its two files. -/
theorem paths_copyChunk {fs : FileSystem} {reads : Reads} {part : ℤ} {src dest path : Bytes}
    {call : Syscall} (hcall : call ∈ copyChunk fs reads part src dest)
    (hpath : path ∈ call.paths) : path = src ∨ path = dest := by
  unfold copyChunk at hcall
  split at hcall
  · obtain rfl := List.mem_singleton.1 hcall
    exact Or.inl (by simpa [Syscall.paths] using hpath)
  · rcases List.mem_append.1 hcall with hcall | hcall
    · simp only [List.mem_cons, List.not_mem_nil, or_false] at hcall
      rcases hcall with rfl | rfl | rfl
      · exact Or.inl (by simpa [Syscall.paths] using hpath)
      · exact Or.inl (by simpa [Syscall.paths] using hpath)
      · exact Or.inr (by simpa [Syscall.paths] using hpath)
    · -- writes go to a descriptor
      split at hcall
      · obtain ⟨data, -, rfl⟩ := List.mem_map.1 hcall
        simp [Syscall.paths] at hpath
      · simp at hcall

section

variable {cacheDir m : Bytes} {buf buf' : CharArray} {fs : FileSystem} {reads : Reads}
  {call : Syscall}

/-- A handler that makes a system call has come to its end. -/
theorem exists_calls {o : Option (List Syscall)} (h : o.getD [] ≠ []) :
    ∃ calls, o = some calls ∧ calls ≠ [] := by
  cases o with
  | none => exact absurd rfl h
  | some calls => exact ⟨calls, rfl, h⟩

/-- If `GrantChown` acts, memory holds a request, and it acts on that. -/
theorem grantChown_acts (hne : (grantChown cacheDir m buf).getD [] ≠ []) :
    ∃ u g path, ChownRequest m u g path ∧
      grantChown cacheDir m buf = some [.chown (cacheFiles cacheDir ++ path) u g] := by
  obtain ⟨calls, hcalls, hne⟩ := exists_calls hne
  obtain ⟨u, g, path, hreq⟩ := chownRequest_of_grantChown cacheDir hcalls hne
  exact ⟨u, g, path, hreq, hreq.grantChown_eq cacheDir buf⟩

/-- If `GrantPublish` acts, memory holds a request, and it acts on that. -/
theorem grantPublish_acts (hne : (grantPublish cacheDir m buf buf').getD [] ≠ []) :
    ∃ d n, PublishRequest m d n ∧
      grantPublish cacheDir m buf buf' = some (publishCalls cacheDir d.chars n.chars) := by
  obtain ⟨calls, hcalls, hne⟩ := exists_calls hne
  obtain ⟨d, n, hreq⟩ := publishRequest_of_grantPublish cacheDir hcalls hne
  exact ⟨d, n, hreq, hreq.grantPublish_eq cacheDir buf buf'⟩

/-- If `CreateFileChunk` acts, memory holds a request, and it acts on that. -/
theorem createFileChunk_acts (hne : (createFileChunk cacheDir fs reads m buf).getD [] ≠ []) :
    ∃ part path dest, ChunkRequest m part path dest ∧
      createFileChunk cacheDir fs reads m buf
        = some (copyChunk fs reads part (cacheFiles cacheDir ++ path)
            (cacheInprogress cacheDir ++ dest.chars)) := by
  obtain ⟨calls, hcalls, hne⟩ := exists_calls hne
  obtain ⟨part, path, dest, hreq⟩ := chunkRequest_of_createFileChunk cacheDir hcalls hne
  exact ⟨part, path, dest, hreq, hreq.createFileChunk_eq cacheDir fs reads buf⟩

theorem grantChown_confined (hcall : call ∈ (grantChown cacheDir m buf).getD []) :
    ∀ path ∈ call.paths, CachePath cacheDir path := by
  obtain ⟨u, g, path, hreq, hcalls⟩ := grantChown_acts (List.ne_nil_of_mem hcall)
  rw [hcalls, Option.getD_some, List.mem_singleton] at hcall
  subst hcall
  simpa [Syscall.paths] using hreq.cachePath cacheDir

theorem grantPublish_confined (hcall : call ∈ (grantPublish cacheDir m buf buf').getD []) :
    ∀ path ∈ call.paths, CachePath cacheDir path := by
  obtain ⟨d, n, hreq, hcalls⟩ := grantPublish_acts (List.ne_nil_of_mem hcall)
  have hfiles : ∀ k : Name, CachePath cacheDir (cacheFiles cacheDir ++ k.chars) :=
    CachePath.name (Or.inl rfl)
  have hprogress : ∀ k : Name, CachePath cacheDir (cacheInprogress cacheDir ++ k.chars) :=
    CachePath.name (Or.inr rfl)
  rw [hcalls, Option.getD_some] at hcall
  simp only [publishCalls, List.mem_cons, List.not_mem_nil, or_false] at hcall
  intro path hpath
  -- the directory is moved, removed where it was, and the file is moved into it
  rcases hcall with rfl | rfl | rfl
  · rcases List.mem_cons.1 hpath with rfl | hpath
    · exact hprogress d
    · obtain rfl := List.mem_singleton.1 hpath
      exact hfiles d
  · obtain rfl := List.mem_singleton.1 hpath
    exact hprogress d
  · rcases List.mem_cons.1 hpath with rfl | hpath
    · exact hprogress n
    · obtain rfl := List.mem_singleton.1 hpath
      exact CachePath.nested (Or.inl rfl) d n

theorem createFileChunk_confined
    (hcall : call ∈ (createFileChunk cacheDir fs reads m buf).getD []) :
    ∀ path ∈ call.paths, CachePath cacheDir path := by
  obtain ⟨part, path, dest, hreq, hcalls⟩ := createFileChunk_acts (List.ne_nil_of_mem hcall)
  rw [hcalls, Option.getD_some] at hcall
  intro path' hpath'
  rcases paths_copyChunk hcall hpath' with rfl | rfl
  · exact hreq.cachePath cacheDir
  · exact CachePath.name (Or.inr rfl) dest

end

/-- **The privileged process is confined to the cache**: whatever the memory behind a request's
keyword and the uninitialised arrays of the handlers hold, every path a handler hands to the
system is one inside the cache. -/
theorem paths_confined (cacheDir m : Bytes) (buf buf' : CharArray) (fs : FileSystem)
    (reads : Reads) (call : Syscall)
    (hcall : call ∈ (grantChown cacheDir m buf).getD [] ∨
      call ∈ (grantPublish cacheDir m buf buf').getD [] ∨
      call ∈ (createFileChunk cacheDir fs reads m buf).getD []) :
    ∀ path ∈ call.paths, CachePath cacheDir path := by
  rcases hcall with hcall | hcall | hcall
  · exact grantChown_confined hcall
  · exact grantPublish_confined hcall
  · exact createFileChunk_confined hcall

/-- A request that is acted on, with an array full of characters that could be part of a name. -/
theorem paths_confined_chown :
    Syscall.chown (ascii "/cache/files/aB3dE5") 7 8 ∈
      (grantChown (ascii "/cache") (ascii "7:8:aB3dE5" ++ [0]) fun _ => 97).getD [] ∧
    CachePath (ascii "/cache") (ascii "/cache/files/aB3dE5") := by
  have hcall : Syscall.chown (ascii "/cache/files/aB3dE5") 7 8 ∈
      (grantChown (ascii "/cache") (ascii "7:8:aB3dE5" ++ [0]) fun _ => 97).getD [] := by decide
  exact ⟨hcall, paths_confined (ascii "/cache") (ascii "7:8:aB3dE5" ++ [0]) (fun _ => 97)
    (fun _ => 97) (fun _ => none) (fun _ n => n) _ (Or.inl hcall) _ (by simp [Syscall.paths])⟩

/-! ### The notation of requests -/

/-- One to five digits. -/
structure Number (ds : Bytes) : Prop where
  digits : ∀ d ∈ ds, isdigit d = true
  ne_nil : ds ≠ []
  short : ds.length ≤ 5

/-- `name` or `dir/name`. -/
inductive PathNotation : Bytes → Prop
  | name (n : Name) : PathNotation n.chars
  | nested (d n : Name) : PathNotation (d.chars ++ slash :: n.chars)

/-- `uid:gid:name` or `uid:gid:dir/name`. -/
inductive ChownNotation : Bytes → ℤ → ℤ → Bytes → Prop
  | intro {ds ds' path : Bytes} (huid : Number ds) (hgid : Number ds') (hpath : PathNotation path) :
      ChownNotation (ds ++ colon :: (ds' ++ colon :: path)) (decimalValue ds) (decimalValue ds')
        path

/-- `dir:name`. -/
inductive PublishNotation : Bytes → Name → Name → Prop
  | intro (d n : Name) : PublishNotation (d.chars ++ colon :: n.chars) d n

/-- `part:name:dest` or `part:dir/name:dest`, with a part in 1, …, 10000. -/
inductive ChunkNotation : Bytes → ℤ → Bytes → Name → Prop
  | intro {ds path : Bytes} (hpart : Number ds) (hpath : PathNotation path) (dest : Name)
      (h₀ : 1 ≤ decimalValue ds) (h₁ : decimalValue ds ≤ 10000) :
      ChunkNotation (ds ++ colon :: (path ++ colon :: dest.chars)) (decimalValue ds) path dest

/-! ### The notation with separators skipped -/

/-- A path as it may be written before the character `c`: no alphanumeric may follow a name, and
no `'/'` a name alone. -/
inductive PathText : Bytes → Bytes → UInt8 → Prop
  | name (n : Name) {c : UInt8} (hc : isalnum c = false) (hslash : c ≠ slash) :
      PathText n.chars n.chars c
  | nested (d n : Name) {p : Bytes} {c : UInt8} (hp : ∀ x ∈ p, separator x = true)
      (hc : isalnum c = false) :
      PathText (d.chars ++ slash :: (p ++ n.chars)) (d.chars ++ slash :: n.chars) c

/-- A string, with its terminator, that asks for a change of ownership. -/
inductive ChownText (str : Bytes) : ℤ → ℤ → Bytes → Prop
  | intro {j ds j' ds' p text path tail : Bytes} {c : UInt8} (hnul : ∀ x ∈ str, x ≠ 0)
      (hstr : str ++ [0] =
        j ++ (ds ++ colon :: (j' ++ (ds' ++ colon :: (p ++ (text ++ c :: tail))))))
      (hj : ∀ x ∈ j, skipped x = true) (hj' : ∀ x ∈ j', skipped x = true)
      (hp : ∀ x ∈ p, separator x = true) (huid : Number ds) (hgid : Number ds')
      (hpath : PathText text path c) :
      ChownText str (decimalValue ds) (decimalValue ds') path

/-- A string, with its terminator, that asks for a file to be published. -/
inductive PublishText (str : Bytes) : Name → Name → Prop
  | intro {p p' tail : Bytes} {d n : Name} {c c' : UInt8} (hnul : ∀ x ∈ str, x ≠ 0)
      (hstr : str ++ [0] = p ++ (d.chars ++ c :: (p' ++ (n.chars ++ c' :: tail))))
      (hp : ∀ x ∈ p, separator x = true) (hp' : ∀ x ∈ p', separator x = true)
      (hc : isalnum c = false) (hc' : isalnum c' = false) : PublishText str d n

/-- A string, with its terminator, that asks for a part to be copied. -/
inductive ChunkText (str : Bytes) : ℤ → Bytes → Name → Prop
  | intro {j ds p text path p' tail : Bytes} {dest : Name} {c c' : UInt8}
      (hnul : ∀ x ∈ str, x ≠ 0)
      (hstr : str ++ [0]
        = j ++ (ds ++ colon :: (p ++ (text ++ c :: (p' ++ (dest.chars ++ c' :: tail))))))
      (hj : ∀ x ∈ j, skipped x = true) (hp : ∀ x ∈ p, separator x = true)
      (hp' : ∀ x ∈ p', separator x = true) (hpart : Number ds) (hpath : PathText text path c)
      (hc' : isalnum c' = false) (h₀ : 1 ≤ decimalValue ds) (h₁ : decimalValue ds ≤ 10000) :
      ChunkText str (decimalValue ds) path dest

theorem skipped_colon : skipped colon = true := by decide

theorem separator_colon : separator colon = true := by decide

/-- A number of one to five digits is read as what it says. -/
theorem Number.intField {j ds : Bytes} (h : Number ds) (hj : ∀ x ∈ j, skipped x = true)
    (r : Bytes) : IntField (j ++ (ds ++ colon :: r)) j ds colon r :=
  ⟨rfl, hj, h.digits, by decide, fun hnil => absurd hnil h.ne_nil⟩

theorem Number.intValue_eq {ds : Bytes} (h : Number ds) : intValue ds = decimalValue ds :=
  intValue_eq_decimalValue h.digits (le_trans h.short (by omega))

/-- A path as it may be written is read as what it says. -/
theorem PathText.pathField {text path : Bytes} {c : UInt8} (h : PathText text path c) {p : Bytes}
    (hp : ∀ x ∈ p, separator x = true) (r : Bytes) :
    ∃ n, PathField (p ++ (text ++ c :: r)) path n r := by
  cases h with
  | name k _ hslash => exact ⟨_, PathField.name k (k.fileField hp c r) hslash⟩
  | @nested d k p' _ hp' _ =>
      have hdir : FileField (p ++ (d.chars ++ slash :: (p' ++ k.chars) ++ c :: r)) p d.chars slash
          (p' ++ (k.chars ++ c :: r)) := by
        simpa using d.fileField hp slash (p' ++ (k.chars ++ c :: r))
      exact ⟨_, PathField.nested d k hdir (k.fileField hp' c r)⟩

/-- A separator at the head of a run of separators. -/
theorem forall_mem_colon_cons {q : UInt8 → Bool} (hcolon : q colon = true) {p : Bytes}
    (hp : ∀ x ∈ p, q x = true) : ∀ x ∈ colon :: p, q x = true := by
  intro x hx
  rcases List.mem_cons.1 hx with rfl | hx
  · exact hcolon
  · exact hp x hx

/-- What is written as a request is one, whatever memory holds behind the string. -/
theorem ChownText.request {str path : Bytes} {u g : ℤ} (h : ChownText str u g path)
    (rest : Bytes) : ChownRequest (str ++ 0 :: rest) u g path := by
  cases h with
  | @intro j ds j' ds' p text _ tail c _ hstr hj hj' hp huid hgid hpath =>
      have hm : str ++ 0 :: rest = j ++ (ds ++ colon :: (j' ++ (ds' ++ colon ::
          (p ++ (text ++ c :: (tail ++ rest)))))) := by
        have := congrArg (· ++ rest) hstr
        simpa using this
      obtain ⟨n, hfield⟩ := hpath.pathField (forall_mem_colon_cons separator_colon hp)
        (tail ++ rest)
      rw [hm, ← huid.intValue_eq, ← hgid.intValue_eq]
      refine ChownRequest.intro (huid.intField hj _)
        (hgid.intField (forall_mem_colon_cons skipped_colon hj') _) hfield ?_ ?_
      · rw [huid.intValue_eq]; omega
      · rw [hgid.intValue_eq]; omega

theorem PublishText.request {str : Bytes} {d n : Name} (h : PublishText str d n) (rest : Bytes) :
    PublishRequest (str ++ 0 :: rest) d n := by
  cases h with
  | @intro p p' tail _ _ c c' _ hstr hp hp' _ _ =>
      have hm : str ++ 0 :: rest
          = p ++ (d.chars ++ c :: (p' ++ (n.chars ++ c' :: (tail ++ rest)))) := by
        have := congrArg (· ++ rest) hstr
        simpa using this
      rw [hm]
      exact PublishRequest.intro (d.fileField hp c _) (n.fileField hp' c' _)

theorem ChunkText.request {str path : Bytes} {part : ℤ} {dest : Name}
    (h : ChunkText str part path dest) (rest : Bytes) :
    ChunkRequest (str ++ 0 :: rest) part path dest := by
  cases h with
  | @intro j ds p text _ p' tail _ c c' _ hstr hj hp hp' hpart hpath _ h₀ h₁ =>
      have hm : str ++ 0 :: rest = j ++ (ds ++ colon :: (p ++ (text ++ c ::
          (p' ++ (dest.chars ++ c' :: (tail ++ rest)))))) := by
        have := congrArg (· ++ rest) hstr
        simpa using this
      obtain ⟨n, hfield⟩ := hpath.pathField (forall_mem_colon_cons separator_colon hp)
        (p' ++ (dest.chars ++ c' :: (tail ++ rest)))
      rw [hm, ← hpart.intValue_eq]
      refine ChunkRequest.intro (hpart.intField hj _) hfield (dest.fileField hp' c' _) ?_ ?_
      · rw [hpart.intValue_eq]; omega
      · rw [hpart.intValue_eq]; omega

/-! ### When a handler acts -/

/-- The exact notation is one way to write a path. -/
theorem PathNotation.text {path : Bytes} (h : PathNotation path) {c : UInt8}
    (hc : isalnum c = false) (hslash : c ≠ slash) : PathText path path c := by
  cases h with
  | name n => exact PathText.name n hc hslash
  | nested d n => exact PathText.nested d n (p := []) (by simp) hc

theorem PathNotation.ne_zero {path : Bytes} (h : PathNotation path) : ∀ x ∈ path, x ≠ 0 := by
  intro x hx
  cases h with
  | name n => exact n.ne_zero hx
  | nested d n =>
      rcases List.mem_append.1 hx with hx | hx
      · exact d.ne_zero hx
      · rcases List.mem_cons.1 hx with rfl | hx
        · decide
        · exact n.ne_zero hx

theorem Number.ne_zero {ds : Bytes} (h : Number ds) : ∀ x ∈ ds, x ≠ 0 := fun x hx =>
  ne_zero_of_isalnum (isalnum_of_isdigit (h.digits x hx))

/-- A string put together from two strings around `':'` holds no terminator if they do not. -/
theorem forall_ne_zero_append_colon {a b : Bytes} (ha : ∀ x ∈ a, x ≠ 0) (hb : ∀ x ∈ b, x ≠ 0) :
    ∀ x ∈ a ++ colon :: b, x ≠ 0 := by
  intro x hx
  rcases List.mem_append.1 hx with hx | hx
  · exact ha x hx
  · rcases List.mem_cons.1 hx with rfl | hx
    · decide
    · exact hb x hx

theorem ChownNotation.text {str path : Bytes} {u g : ℤ} (h : ChownNotation str u g path) :
    ChownText str u g path := by
  cases h with
  | @intro ds ds' _ huid hgid hpath =>
      have hstr : ds ++ colon :: (ds' ++ colon :: path) ++ [0]
          = [] ++ (ds ++ colon :: ([] ++ (ds' ++ colon :: ([] ++ (path ++ 0 :: []))))) := by simp
      exact ChownText.intro (forall_ne_zero_append_colon huid.ne_zero
        (forall_ne_zero_append_colon hgid.ne_zero hpath.ne_zero)) hstr (by simp) (by simp)
        (by simp) huid hgid (hpath.text (by decide) (by decide))

theorem PublishNotation.text {str : Bytes} {d n : Name} (h : PublishNotation str d n) :
    PublishText str d n := by
  cases h with
  | intro =>
      have hstr : d.chars ++ colon :: n.chars ++ [0]
          = [] ++ (d.chars ++ colon :: ([] ++ (n.chars ++ 0 :: []))) := by simp
      exact PublishText.intro (forall_ne_zero_append_colon (fun _ => d.ne_zero) fun _ => n.ne_zero)
        hstr (by simp) (by simp) (by decide) (by decide)

theorem ChunkNotation.text {str path : Bytes} {part : ℤ} {dest : Name}
    (h : ChunkNotation str part path dest) : ChunkText str part path dest := by
  cases h with
  | @intro ds _ hpart hpath _ h₀ h₁ =>
      have hstr : ds ++ colon :: (path ++ colon :: dest.chars) ++ [0]
          = [] ++ (ds ++ colon :: ([] ++ (path ++ colon :: ([] ++ (dest.chars ++ 0 :: []))))) := by
        simp
      exact ChunkText.intro (forall_ne_zero_append_colon hpart.ne_zero
        (forall_ne_zero_append_colon hpath.ne_zero fun _ => dest.ne_zero)) hstr (by simp) (by simp)
        (by simp) hpart (hpath.text (by decide) (by decide)) (by decide) h₀ h₁

/-- **The handlers act on every request that is written in their notation**, separators before a
field and text behind the last one aside, with exactly the values that are written; and **they act
only when memory holds the fields of a request**, and then on those. -/
theorem handlers_accept (cacheDir str rest : Bytes) (buf buf' : CharArray) (fs : FileSystem)
    (reads : Reads) :
    ((∀ u g path, ChownText str u g path →
        grantChown cacheDir (str ++ 0 :: rest) buf
          = some [.chown (cacheFiles cacheDir ++ path) u g]) ∧
      ((grantChown cacheDir (str ++ 0 :: rest) buf).getD [] ≠ [] →
        ∃ u g path, ChownRequest (str ++ 0 :: rest) u g path ∧
          grantChown cacheDir (str ++ 0 :: rest) buf
            = some [.chown (cacheFiles cacheDir ++ path) u g])) ∧
    ((∀ d n, PublishText str d n →
        grantPublish cacheDir (str ++ 0 :: rest) buf buf'
          = some (publishCalls cacheDir d.chars n.chars)) ∧
      ((grantPublish cacheDir (str ++ 0 :: rest) buf buf').getD [] ≠ [] →
        ∃ d n, PublishRequest (str ++ 0 :: rest) d n ∧
          grantPublish cacheDir (str ++ 0 :: rest) buf buf'
            = some (publishCalls cacheDir d.chars n.chars))) ∧
    ((∀ part path dest, ChunkText str part path dest →
        createFileChunk cacheDir fs reads (str ++ 0 :: rest) buf
          = some (copyChunk fs reads part (cacheFiles cacheDir ++ path)
              (cacheInprogress cacheDir ++ dest.chars))) ∧
      ((createFileChunk cacheDir fs reads (str ++ 0 :: rest) buf).getD [] ≠ [] →
        ∃ part path dest, ChunkRequest (str ++ 0 :: rest) part path dest ∧
          createFileChunk cacheDir fs reads (str ++ 0 :: rest) buf
            = some (copyChunk fs reads part (cacheFiles cacheDir ++ path)
                (cacheInprogress cacheDir ++ dest.chars)))) := by
  refine ⟨⟨?_, grantChown_acts⟩, ⟨?_, grantPublish_acts⟩, ⟨?_, createFileChunk_acts⟩⟩
  · intro u g path h
    exact (h.request rest).grantChown_eq cacheDir buf
  · intro d n h
    exact (h.request rest).grantPublish_eq cacheDir buf buf'
  · intro part path dest h
    exact (h.request rest).createFileChunk_eq cacheDir fs reads buf

/-- The exact notation is not required: a space before the first number is skipped. -/
theorem chown_accepts_leading_space :
    ¬ ((grantChown (ascii "/cache") (ascii " 7:8:aB3dE5" ++ 0 :: []) fun _ => 0).getD [] ≠ [] ↔
      ∃ u g path, ChownNotation (ascii " 7:8:aB3dE5") u g path) := by
  intro h
  obtain ⟨u, g, path, hnot⟩ := h.1 (by decide)
  generalize hstr : ascii " 7:8:aB3dE5" = str at hnot
  cases hnot with
  | @intro ds ds' _ huid _ _ =>
      obtain ⟨d, ds, rfl⟩ := List.exists_cons_of_ne_nil huid.ne_nil
      have hd := huid.digits d (by simp)
      have h32 : (32 : UInt8) = d := (List.cons.inj hstr).1
      rw [← h32] at hd
      exact absurd hd (by decide)

end AwsS3fs.Grant
