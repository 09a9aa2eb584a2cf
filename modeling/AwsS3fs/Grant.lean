/-
**The privileged operations.**

The three requests that the permissions grant process carries out: `GrantChown` gives a file of the
shared cache to its owner, `GrantPublish` moves a downloaded file into the shared cache, and
`CreateFileChunk` copies a part of a cached file to where the unprivileged process can read it.
Each handler is a function from the memory behind the request's keyword to the system calls it
makes; the uninitialised character arrays on its stack are arguments.

Main definitions:

* `AwsS3fs.Grant.Syscall`, `AwsS3fs.Grant.FileSystem` — the system calls, and the files they see;
* `AwsS3fs.Grant.grantPublish`, `AwsS3fs.Grant.grantChown`, `AwsS3fs.Grant.createFileChunk` — the
  handlers;
* `AwsS3fs.Grant.PathField` — how memory splits into a name, or a directory and a name;
* `AwsS3fs.Grant.ChownRequest`, `AwsS3fs.Grant.PublishRequest`, `AwsS3fs.Grant.ChunkRequest` — the
  requests, as splits of memory into fields.

Main results:

* `AwsS3fs.Grant.getPath_sound`, `AwsS3fs.Grant.getPath_complete` — **which paths are read and
  verified**;
* `AwsS3fs.Grant.ChownRequest.grantChown_eq`, `AwsS3fs.Grant.chownRequest_of_grantChown`, and
  likewise for the other two handlers — **when a handler acts, and on what**.
-/

import AwsS3fs.GrantParameters
import AwsS3fs.Multipart

set_option relaxedAutoImplicit false
set_option autoImplicit false

namespace AwsS3fs.Grant

open CLib

/-- The system calls of the handlers.  A descriptor is named by the path it was opened on. -/
inductive Syscall where
  | chown (path : Bytes) (uid gid : ℤ)
  | rename (oldpath newpath : Bytes)
  | rmdir (path : Bytes)
  | stat (path : Bytes)
  | openRead (path : Bytes)
  | openTrunc (path : Bytes)
  | write (path data : Bytes)
  deriving DecidableEq

/-- The paths a system call is given. -/
def Syscall.paths : Syscall → List Bytes
  | chown path _ _ => [path]
  | rename oldpath newpath => [oldpath, newpath]
  | rmdir path => [path]
  | stat path => [path]
  | openRead path => [path]
  | openTrunc path => [path]
  | write _ _ => []

/-- What a path may lead to. -/
inductive Node where
  | directory (size : ℕ)
  | file (content : Bytes)

/-- `st_size`. -/
def Node.size : Node → ℕ
  | directory size => size
  | file content => content.length

/-- What every path leads to, if anything. -/
abbrev FileSystem := Bytes → Option Node

section

variable (cacheDir : Bytes)

/-- `CACHE_FILES`. -/
def cacheFiles : Bytes := cacheDir ++ ascii "/files/"

/-- `CACHE_INPROGRESS`. -/
def cacheInprogress : Bytes := cacheFiles cacheDir ++ ascii "unfinished/"

/-! ### The handlers -/

/-- The calls that publish a file: the directory is moved, and removed where it was in case it
existed already, and then the file is moved into it. -/
def publishCalls (directory filename : Bytes) : List Syscall :=
  let destpath := cacheFiles cacheDir ++ directory
  let dirpath := cacheInprogress cacheDir ++ directory
  let filepath := cacheInprogress cacheDir ++ filename
  let filedest := cacheFiles cacheDir ++ directory ++ [slash] ++ filename
  [.rename dirpath destpath, .rmdir dirpath, .rename filepath filedest]

/-- `GrantPublish`. -/
def grantPublish (parameters : Bytes) (directory filename : CharArray) :
    Option (List Syscall) := do
  let (pos, directory) ← getFileParameter parameters directory 0
  let (_, filename) ← getFileParameter (parameters.drop pos) filename 0
  if verifyFilename directory 0 && verifyFilename filename 0 then
    return publishCalls cacheDir (directory.str 7) (filename.str 7)
  else return []

/-- Reading and checking a file name that may be preceded by a directory, the lines that
`GrantChown` and `CreateFileChunk` share: the new position, and the array `filename` if the path
in it is valid. -/
def getPath (parameters : Bytes) (pos : ℕ) (filename : CharArray) :
    Option (ℕ × Option CharArray) := do
  let (n, filename) ← getFileParameter (parameters.drop pos) filename 0
  let pos := pos + n
  -- the position is behind the character that ended the name
  if parameters[pos - 1]? = some slash then
    let filename := Function.update filename 6 0
    let (n, filename) ← getFileParameter (parameters.drop pos) filename 7
    let filename := Function.update filename 13 0
    if verifyFilename filename 0 then
      let filename := Function.update filename 6 slash
      return (pos + n, if verifyFilename filename 7 then some filename else none)
    else return (pos + n, none)
  else return (pos, if verifyFilename filename 0 then some filename else none)

/-- `GrantChown`. -/
def grantChown (parameters : Bytes) (filename : CharArray) : Option (List Syscall) := do
  let (pos, uid) ← getIntParameter parameters
  if uid < 0 then return [] else
  -- the position is at the `':'` that ended the number, which is skipped now
  let (n, gid) ← getIntParameter (parameters.drop pos)
  if gid < 0 then return [] else
  let (_, path) ← getPath parameters (pos + n) filename
  match path with
  | none => return []
  | some filename => return [.chown (cacheFiles cacheDir ++ filename.str 14) uid gid]

/-- What `CreateFileChunk` does once it has its parameters: find the size of the source, open the
two files and copy the part. -/
def copyChunk (fs : FileSystem) (reads : Reads) (part : ℤ) (src dest : Bytes) : List Syscall :=
  match fs src with
  | none => [.stat src]
  | some node =>
      let size := partSize part node.size
      [.stat src, .openRead src, .openTrunc dest] ++
        match node, fs dest with
        | .file content, some (.file _) =>
            (copyLoop content reads (partOffset part) size 0 0).map (.write dest)
        -- the destination cannot be opened, or the source is a directory and cannot be read
        | _, _ => []

/-- `CreateFileChunk`. -/
def createFileChunk (fs : FileSystem) (reads : Reads) (parameters : Bytes)
    (filename : CharArray) : Option (List Syscall) := do
  let (pos, part) ← getIntParameter parameters
  if part < 0 ∨ 10000 < part then return [] else
  let (pos, path) ← getPath parameters pos filename
  match path with
  | none => return []
  | some filename =>
      let src := cacheFiles cacheDir ++ filename.str 14
      let (_, filename) ← getFileParameter (parameters.drop pos) filename 0
      if verifyFilename filename 0 then
        return copyChunk fs reads part src (cacheInprogress cacheDir ++ filename.str 14)
      else return []

end

/-! ### Paths -/

/-- A path in memory, with the memory `r` behind it: a name that is not followed by `'/'`, or a
directory, `'/'`, and a name. -/
inductive PathField (m : Bytes) : Bytes → ℕ → Bytes → Prop
  | name {p : Bytes} (n : Name) {c : UInt8} {r : Bytes} (h : FileField m p n.chars c r)
      (hc : c ≠ slash) : PathField m n.chars (p.length + 7) r
  | nested {p p' : Bytes} (d n : Name) {c : UInt8} {r r' : Bytes}
      (h : FileField m p d.chars slash r) (h' : FileField r p' n.chars c r') :
      PathField m (d.chars ++ slash :: n.chars) (p.length + 7 + (p'.length + 7)) r'

/-- The memory behind a name is where the position `GetFileParameter` returns points. -/
theorem FileField.drop_eq {m p w r : Bytes} {c : UInt8} (h : FileField m p w c r) :
    m.drop (p.length + w.length + 1) = r := by
  rw [h.split, ← List.append_assoc, ← List.drop_drop, ← List.length_append, List.drop_left]
  rfl

/-- The character behind a name is the one just before that position. -/
theorem FileField.getElem?_last {parameters p w r : Bytes} {c : UInt8} {pos : ℕ}
    (h : FileField (parameters.drop pos) p w c r) :
    parameters[pos + (p.length + w.length + 1) - 1]? = some c := by
  rw [show pos + (p.length + w.length + 1) - 1 = pos + (p.length + w.length) by omega,
    ← List.getElem?_drop, h.split, ← List.append_assoc]
  simp

/-- The memory behind a path is where the position points. -/
theorem PathField.drop_eq {m path r : Bytes} {n : ℕ} (h : PathField m path n r) :
    m.drop n = r := by
  cases h with
  | name k h hc => simpa using h.drop_eq
  | nested d k h h' =>
      have h₁ := h.drop_eq
      have h₂ := h'.drop_eq
      rw [Name.length_eq] at h₁ h₂
      rw [← List.drop_drop, h₁, h₂]

/-- A name that passed as one of type `Name`. -/
theorem FileField.exists_name {m p w r : Bytes} {c : UInt8} (h : FileField m p w c r)
    (h6 : w.length = 6) : ∃ n : Name, n.chars = w := ⟨⟨w, h6, h.name⟩, rfl⟩

/-- The string in the array after a directory and a name have been stored, with all the steps that
`GetFileParameter` is interleaved with. -/
theorem str_nested (buf : CharArray) (d n : Name) :
    CharArray.str (Function.update (Function.update (CharArray.write
      (Function.update (buf.write 0 (d.chars ++ [0])) 6 0) 7 (n.chars ++ [0])) 13 0) 6 slash) 14
        = d.chars ++ slash :: n.chars := by
  have hd := d.length_eq
  have hn := n.length_eq
  have hwrite : Function.update (Function.update (CharArray.write
      (Function.update (buf.write 0 (d.chars ++ [0])) 6 0) 7 (n.chars ++ [0])) 13 0) 6 slash
        = buf.write 0 (d.chars ++ slash :: n.chars ++ [0]) := by
    funext j
    simp only [Function.update_apply, CharArray.write_apply, List.getElem?_append,
      List.getElem?_cons, List.length_append, List.length_cons, hd, hn]
    grind
  rw [hwrite]
  refine CharArray.str_write _ (fun ch hch => ?_) (by simp)
  rcases List.mem_append.1 hch with hch | hch
  · exact d.ne_zero hch
  · rcases List.mem_cons.1 hch with rfl | hch
    · decide
    · exact n.ne_zero hch

/-- The first of two names passes its check exactly if it is complete, although a terminator is
put behind the sixth character before the check. -/
theorem verifyFilename_first {buf : CharArray} {w v : Bytes} (hw : ∀ x ∈ w, isalnum x = true)
    (hle : w.length ≤ 6) :
    verifyFilename (Function.update (CharArray.write
      (Function.update (buf.write 0 (w ++ [0])) 6 0) 7 v) 13 0) 0 = true ↔ w.length = 6 := by
  refine verifyFilename_of_get hw hle (fun pos hpos hlen => ?_) fun _ => ?_
  · rw [Function.update_of_ne (by omega), CharArray.write_of_lt _ _ _ (by omega),
      Function.update_of_ne (by omega), CharArray.write_apply, if_neg (by omega)]
    simp only [Nat.zero_add, Nat.sub_zero]
    rw [List.getElem?_eq_getElem (by simp; omega), Option.getD_some, Option.getD_some]
  · rw [Function.update_of_ne (by omega), CharArray.write_of_lt _ _ _ (by omega),
      Function.update_self]

/-- The second of two names passes its check exactly if it is complete. -/
theorem verifyFilename_second {buf : CharArray} {v : Bytes} (hv : ∀ x ∈ v, isalnum x = true)
    (hle : v.length ≤ 6) :
    verifyFilename (Function.update (Function.update (buf.write 7 (v ++ [0])) 13 0) 6 slash) 7
      = true ↔ v.length = 6 := by
  refine verifyFilename_of_get hv hle (fun pos hpos hlen => ?_) fun _ => ?_
  · rw [Function.update_of_ne (by omega), Function.update_of_ne (by omega),
      CharArray.write_get _ _ _ (by simp; omega), List.getElem?_eq_getElem (by simp; omega),
      Option.getD_some]
  · rw [Function.update_of_ne (by omega), Function.update_self]

/-- **A path that is read and verified** is one that memory holds. -/
theorem getPath_sound {parameters : Bytes} {pos pos' : ℕ} {buf f : CharArray}
    (h : getPath parameters pos buf = some (pos', some f)) :
    ∃ n r, PathField (parameters.drop pos) (f.str 14) n r ∧ pos' = pos + n := by
  simp only [getPath, Option.bind_eq_bind, Option.bind_eq_some_iff, Option.pure_def,
    Prod.exists] at h
  obtain ⟨n, buf₁, hread, h⟩ := h
  obtain ⟨p, w, c, r, hfield, rfl, rfl⟩ := getFileParameter_eq_some_iff.1 hread
  rw [hfield.getElem?_last, ← List.drop_drop, hfield.drop_eq] at h
  split at h
  · -- a directory and a name
    rename_i hc
    obtain rfl : c = slash := Option.some_inj.1 hc
    simp only [Option.bind_eq_some_iff, Prod.exists] at h
    obtain ⟨n', buf₂, hread', h⟩ := h
    obtain ⟨p', w', c', r', hfield', rfl, rfl⟩ := getFileParameter_eq_some_iff.1 hread'
    split at h
    · rename_i hfirst
      simp only [Option.some_inj, Prod.mk.injEq] at h
      obtain ⟨rfl, h⟩ := h
      split at h
      · rename_i hsecond
        obtain ⟨d, rfl⟩ := hfield.exists_name
          ((verifyFilename_first hfield.name hfield.short).1 hfirst)
        obtain ⟨k, rfl⟩ := hfield'.exists_name
          ((verifyFilename_second hfield'.name hfield'.short).1 hsecond)
        obtain rfl := Option.some_inj.1 h
        refine ⟨p.length + 7 + (p'.length + 7), r', ?_, by simp only [Name.length_eq]; omega⟩
        rw [str_nested]
        exact PathField.nested d k hfield hfield'
      · simp at h
    · simp at h
  · -- a name alone
    rename_i hc
    simp only [Option.some_inj, Prod.mk.injEq] at h
    obtain ⟨rfl, h⟩ := h
    split at h
    · rename_i hfirst
      obtain ⟨k, rfl⟩ := hfield.exists_name
        ((verifyFilename_write hfield.name hfield.short).1 hfirst)
      obtain rfl := Option.some_inj.1 h
      refine ⟨p.length + 7, r, ?_, by simp⟩
      rw [CharArray.str_write _ (fun ch hch => k.ne_zero hch) (by simp)]
      exact PathField.name k hfield fun hslash => hc (by rw [hslash])
    · simp at h

/-- **A path that memory holds is read and verified**, whatever the array held before. -/
theorem getPath_complete {parameters path r : Bytes} {pos n : ℕ}
    (h : PathField (parameters.drop pos) path n r) (buf : CharArray) :
    ∃ f, getPath parameters pos buf = some (pos + n, some f) ∧ f.str 14 = path := by
  cases h with
  | @name p k c _ hfield hc =>
      have hread : getFileParameter (parameters.drop pos) buf 0
          = some (p.length + k.chars.length + 1, buf.write 0 (k.chars ++ [0])) :=
        getFileParameter_eq_some_iff.2 ⟨p, k.chars, c, r, hfield, rfl, rfl⟩
      refine ⟨buf.write 0 (k.chars ++ [0]), ?_,
        CharArray.str_write _ (fun ch hch => k.ne_zero hch) (by simp)⟩
      simp only [getPath, hread, Option.bind_eq_bind, Option.bind_some, hfield.getElem?_last,
        Option.some_inj, hc, if_false, Option.pure_def,
        (verifyFilename_write k.alnum (by simp)).2 k.length_eq, if_true]
      simp
  | @nested p p' d k c r₁ _ hfield hfield' =>
      have hread : getFileParameter (parameters.drop pos) buf 0
          = some (p.length + d.chars.length + 1, buf.write 0 (d.chars ++ [0])) :=
        getFileParameter_eq_some_iff.2 ⟨p, d.chars, slash, r₁, hfield, rfl, rfl⟩
      have hread' : ∀ f : CharArray, getFileParameter r₁ f 7
          = some (p'.length + k.chars.length + 1, f.write 7 (k.chars ++ [0])) := fun f =>
        getFileParameter_eq_some_iff.2 ⟨p', k.chars, c, r, hfield', rfl, rfl⟩
      refine ⟨_, ?_, str_nested buf d k⟩
      have hdrop : parameters.drop (pos + (p.length + d.chars.length + 1)) = r₁ := by
        rw [← List.drop_drop, hfield.drop_eq]
      simp only [getPath, hread, Option.bind_eq_bind, Option.bind_some, hfield.getElem?_last,
        hdrop, if_true, hread', Option.pure_def,
        (verifyFilename_first d.alnum (by simp)).2 d.length_eq,
        (verifyFilename_second k.alnum (by simp)).2 k.length_eq]
      simp [Nat.add_assoc]

/-! ### When a handler acts -/

/-- The memory behind a number starts with the character that ended it. -/
theorem IntField.drop_eq {m j ds r : Bytes} {c : UInt8} (h : IntField m j ds c r) :
    m.drop (j.length + ds.length) = c :: r := by
  rw [h.split, ← List.drop_drop, List.drop_left, List.drop_left]

/-- No path is read at a terminator. -/
theorem not_pathField_zero {m path r : Bytes} {n : ℕ} : ¬ PathField (0 :: m) path n r := by
  have key : ∀ {p r : Bytes} {k : Name} {c : UInt8}, ¬ FileField (0 :: m) p k.chars c r := by
    intro p r k c h
    have hsplit := h.split
    cases p with
    | nil =>
        obtain ⟨ch, w, hw⟩ := List.exists_cons_of_ne_nil k.ne_nil
        rw [hw] at hsplit
        have h0 : (0 : UInt8) = ch := (List.cons.inj hsplit).1
        exact k.ne_zero (by simp [hw]) h0.symm
    | cons ch p =>
        have h0 : (0 : UInt8) = ch := (List.cons.inj hsplit).1
        have := h.seps ch (by simp)
        rw [← h0] at this
        simp [separator] at this
  rintro (⟨k, h, -⟩ | ⟨d, k, h, -⟩)
  · exact key h
  · exact key h

/-- A number read at a terminator ends there. -/
theorem IntField.eq_zero {m j ds r : Bytes} {c : UInt8} (h : IntField (0 :: m) j ds c r) :
    c = 0 := by
  have hsplit := h.split
  cases j with
  | nil =>
      cases ds with
      | nil => exact (List.cons.inj hsplit).1.symm
      | cons d ds =>
          have h0 : (0 : UInt8) = d := (List.cons.inj hsplit).1
          have := h.digits d (by simp)
          rw [← h0] at this
          simp [isdigit] at this
  | cons ch j =>
      have h0 : (0 : UInt8) = ch := (List.cons.inj hsplit).1
      have := h.skip ch (by simp)
      rw [← h0] at this
      simp [skipped] at this

/-- Where a number ends that lets its handler go on: at `':'`, or at the end of the string. -/
theorem getIntParameter_nonneg {m : Bytes} {pos : ℕ} {v : ℤ} (h : getIntParameter m = some (pos, v))
    (hv : ¬ v < 0) : ∃ j ds c r, IntField m j ds c r ∧ m.drop pos = c :: r ∧
      (c = colon ∨ c = 0) ∧ v = intValue ds := by
  obtain ⟨j, ds, c, r, hfield, rfl, rfl⟩ := getIntParameter_eq_some_iff.1 h
  by_cases hc : c ≠ colon ∧ c ≠ 0
  · rw [if_pos hc] at hv
    omega
  · refine ⟨j, ds, c, r, hfield, hfield.drop_eq, ?_, if_neg hc⟩
    by_cases hcolon : c = colon
    · exact Or.inl hcolon
    · exact Or.inr (by_contra fun h0 => hc ⟨hcolon, h0⟩)

/-- A number that ends at `':'` is delivered. -/
theorem IntField.getIntParameter_eq {m j ds r : Bytes} (h : IntField m j ds colon r) :
    getIntParameter m = some (j.length + ds.length, intValue ds) :=
  getIntParameter_eq_some_iff.2 ⟨j, ds, colon, r, h, rfl, by simp⟩

/-- A request that `GrantChown` acts on: the numbers it reads, and the path. -/
inductive ChownRequest (m : Bytes) : ℤ → ℤ → Bytes → Prop
  | intro {j ds r j' ds' r' path t : Bytes} {n : ℕ} (huid : IntField m j ds colon r)
      (hgid : IntField (colon :: r) j' ds' colon r') (hpath : PathField (colon :: r') path n t)
      (h₀ : 0 ≤ intValue ds) (h₀' : 0 ≤ intValue ds') :
      ChownRequest m (intValue ds) (intValue ds') path

/-- A request that `GrantPublish` acts on: the directory and the file. -/
inductive PublishRequest (m : Bytes) : Name → Name → Prop
  | intro {p r p' r' : Bytes} {c c' : UInt8} {d n : Name} (hdir : FileField m p d.chars c r)
      (hname : FileField r p' n.chars c' r') : PublishRequest m d n

/-- A request that `CreateFileChunk` acts on: the part, the path, and the destination. -/
inductive ChunkRequest (m : Bytes) : ℤ → Bytes → Name → Prop
  | intro {j ds r path t p r' : Bytes} {n : ℕ} {c : UInt8} {dest : Name}
      (hpart : IntField m j ds colon r) (hpath : PathField (colon :: r) path n t)
      (hdest : FileField t p dest.chars c r') (h₀ : 0 ≤ intValue ds)
      (h₁ : intValue ds ≤ 10000) : ChunkRequest m (intValue ds) path dest

section

variable (cacheDir : Bytes)

/-- **`GrantChown` acts on its requests** with what they say. -/
theorem ChownRequest.grantChown_eq {m path : Bytes} {u g : ℤ} (h : ChownRequest m u g path)
    (buf : CharArray) :
    grantChown cacheDir m buf = some [.chown (cacheFiles cacheDir ++ path) u g] := by
  cases h with
  | @intro j ds r j' ds' r' _ t n huid hgid hpath h₀ h₀' =>
      have hdrop : m.drop (j.length + ds.length + (j'.length + ds'.length)) = colon :: r' := by
        rw [← List.drop_drop, huid.drop_eq, hgid.drop_eq]
      obtain ⟨f, hread, rfl⟩ := getPath_complete (by rw [hdrop]; exact hpath) buf
      simp only [grantChown, huid.getIntParameter_eq, Option.bind_eq_bind, Option.bind_some,
        if_neg (not_lt.2 h₀), huid.drop_eq, hgid.getIntParameter_eq, if_neg (not_lt.2 h₀'), hread,
        Option.pure_def]

/-- **`GrantChown` acts on nothing else.** -/
theorem chownRequest_of_grantChown {m : Bytes} {buf : CharArray} {calls : List Syscall}
    (h : grantChown cacheDir m buf = some calls) (hne : calls ≠ []) :
    ∃ u g path, ChownRequest m u g path := by
  simp only [grantChown, Option.bind_eq_bind, Option.bind_eq_some_iff, Prod.exists] at h
  obtain ⟨pos, uid, hread, h⟩ := h
  split at h
  · exact absurd (Option.some_inj.1 h).symm hne
  rename_i huid
  simp only [Option.bind_eq_some_iff, Prod.exists] at h
  obtain ⟨n, gid, hread', h⟩ := h
  split at h
  · exact absurd (Option.some_inj.1 h).symm hne
  rename_i hgid
  simp only [Option.bind_eq_some_iff, Prod.exists] at h
  obtain ⟨pos', path, hpath, h⟩ := h
  cases path with
  | none => exact absurd (Option.some_inj.1 h).symm hne
  | some f =>
      obtain ⟨k, t, hfield, -⟩ := getPath_sound hpath
      obtain ⟨j, ds, c, r, hint, hdrop, hc, rfl⟩ := getIntParameter_nonneg hread huid
      rw [hdrop] at hread'
      obtain ⟨j', ds', c', r', hint', hdrop', hc', rfl⟩ := getIntParameter_nonneg hread' hgid
      rw [← List.drop_drop, hdrop, hdrop'] at hfield
      -- a number that ends with the string leaves no path to be read
      rcases hc' with rfl | rfl
      · rcases hc with rfl | rfl
        · exact ⟨_, _, _, ChownRequest.intro hint hint' hfield (by omega) (by omega)⟩
        · exact absurd hint'.eq_zero (by decide)
      · exact absurd hfield not_pathField_zero

/-- **`GrantPublish` acts on its requests** with what they say. -/
theorem PublishRequest.grantPublish_eq {m : Bytes} {d n : Name} (h : PublishRequest m d n)
    (buf buf' : CharArray) :
    grantPublish cacheDir m buf buf' = some (publishCalls cacheDir d.chars n.chars) := by
  cases h with
  | @intro p r p' r' c c' _ _ hdir hname =>
      have hread : getFileParameter m buf 0
          = some (p.length + d.chars.length + 1, buf.write 0 (d.chars ++ [0])) :=
        getFileParameter_eq_some_iff.2 ⟨p, d.chars, c, r, hdir, rfl, rfl⟩
      have hread' : getFileParameter r buf' 0
          = some (p'.length + n.chars.length + 1, buf'.write 0 (n.chars ++ [0])) :=
        getFileParameter_eq_some_iff.2 ⟨p', n.chars, c', r', hname, rfl, rfl⟩
      have hstr : ∀ (f : CharArray) (k : Name), CharArray.str (f.write 0 (k.chars ++ [0])) 7
          = k.chars := fun f k => CharArray.str_write _ (fun ch hch => k.ne_zero hch) (by simp)
      simp only [grantPublish, hread, Option.bind_eq_bind, Option.bind_some, hdir.drop_eq, hread',
        (verifyFilename_write d.alnum (by simp)).2 d.length_eq,
        (verifyFilename_write n.alnum (by simp)).2 n.length_eq, Bool.and_self, if_true, hstr,
        Option.pure_def]

/-- **`GrantPublish` acts on nothing else.** -/
theorem publishRequest_of_grantPublish {m : Bytes} {buf buf' : CharArray} {calls : List Syscall}
    (h : grantPublish cacheDir m buf buf' = some calls) (hne : calls ≠ []) :
    ∃ d n, PublishRequest m d n := by
  simp only [grantPublish, Option.bind_eq_bind, Option.bind_eq_some_iff, Prod.exists] at h
  obtain ⟨pos, f, hread, pos', f', hread', h⟩ := h
  obtain ⟨p, w, c, r, hfield, rfl, rfl⟩ := getFileParameter_eq_some_iff.1 hread
  rw [hfield.drop_eq] at hread'
  obtain ⟨p', w', c', r', hfield', rfl, rfl⟩ := getFileParameter_eq_some_iff.1 hread'
  split at h
  · rename_i hverify
    rw [Bool.and_eq_true, verifyFilename_write hfield.name hfield.short,
      verifyFilename_write hfield'.name hfield'.short] at hverify
    obtain ⟨d, rfl⟩ := hfield.exists_name hverify.1
    obtain ⟨n, rfl⟩ := hfield'.exists_name hverify.2
    exact ⟨d, n, PublishRequest.intro hfield hfield'⟩
  · exact absurd (Option.some_inj.1 h).symm hne

/-- **`CreateFileChunk` acts on its requests** with what they say. -/
theorem ChunkRequest.createFileChunk_eq {m path : Bytes} {part : ℤ} {dest : Name}
    (h : ChunkRequest m part path dest) (fs : FileSystem) (reads : Reads) (buf : CharArray) :
    createFileChunk cacheDir fs reads m buf
      = some (copyChunk fs reads part (cacheFiles cacheDir ++ path)
          (cacheInprogress cacheDir ++ dest.chars)) := by
  cases h with
  | @intro j ds r _ t p r' n c _ hpart hpath hdest h₀ h₁ =>
      obtain ⟨f, hread, rfl⟩ := getPath_complete (by rw [hpart.drop_eq]; exact hpath) buf
      have hdrop : m.drop (j.length + ds.length + n) = t := by
        rw [← List.drop_drop, hpart.drop_eq, hpath.drop_eq]
      have hread' : getFileParameter t f 0
          = some (p.length + dest.chars.length + 1, f.write 0 (dest.chars ++ [0])) :=
        getFileParameter_eq_some_iff.2 ⟨p, dest.chars, c, r', hdest, rfl, rfl⟩
      have hrange : ¬ (intValue ds < 0 ∨ 10000 < intValue ds) := by omega
      simp only [createFileChunk, hpart.getIntParameter_eq, Option.bind_eq_bind, Option.bind_some,
        if_neg hrange, hread, hdrop, hread',
        (verifyFilename_write dest.alnum (by simp)).2 dest.length_eq, if_true,
        CharArray.str_write f (fun ch hch => dest.ne_zero hch)
          (show dest.chars.length < 14 by simp), Option.pure_def]

/-- **`CreateFileChunk` acts on nothing else.** -/
theorem chunkRequest_of_createFileChunk {m : Bytes} {fs : FileSystem} {reads : Reads}
    {buf : CharArray} {calls : List Syscall}
    (h : createFileChunk cacheDir fs reads m buf = some calls) (hne : calls ≠ []) :
    ∃ part path dest, ChunkRequest m part path dest := by
  simp only [createFileChunk, Option.bind_eq_bind, Option.bind_eq_some_iff, Prod.exists] at h
  obtain ⟨pos, part, hread, h⟩ := h
  split at h
  · exact absurd (Option.some_inj.1 h).symm hne
  rename_i hrange
  simp only [Option.bind_eq_some_iff, Prod.exists] at h
  obtain ⟨pos', path, hpath, h⟩ := h
  cases path with
  | none => exact absurd (Option.some_inj.1 h).symm hne
  | some f =>
      simp only [Option.bind_eq_some_iff, Prod.exists] at h
      obtain ⟨n', f', hread', h⟩ := h
      obtain ⟨k, t, hfield, rfl⟩ := getPath_sound hpath
      obtain ⟨j, ds, c, r, hint, hdrop, hc, rfl⟩ := getIntParameter_nonneg hread (by omega)
      obtain ⟨p, w, c', r', hdest, rfl, rfl⟩ := getFileParameter_eq_some_iff.1 hread'
      rw [← List.drop_drop, hfield.drop_eq] at hdest
      rw [hdrop] at hfield
      split at h
      · rename_i hverify
        obtain ⟨dest, rfl⟩ := hdest.exists_name
          ((verifyFilename_write hdest.name hdest.short).1 hverify)
        rcases hc with rfl | rfl
        · exact ⟨_, _, dest, ChunkRequest.intro hint hfield hdest (by omega) (by omega)⟩
        · exact absurd hfield not_pathField_zero
      · exact absurd (Option.some_inj.1 h).symm hne

end

/-! ### Memory that does not run out -/

/-- A number is read wherever a terminator lies ahead, and the terminators stay ahead. -/
theorem exists_getIntParameter {m : Bytes} (h : 0 < m.count 0) :
    ∃ pos v, getIntParameter m = some (pos, v) ∧ (m.drop pos).count 0 = m.count 0 := by
  obtain ⟨j, c₀, r₀, rfl, hj, hc₀⟩ :=
    exists_split (p := skipped) (List.count_pos_iff.1 h) (by decide)
  have hzero : 0 ∈ c₀ :: r₀ := by
    rcases List.mem_append.1 (List.count_pos_iff.1 h) with h0 | h0
    · exact absurd (hj 0 h0) (by decide)
    · exact h0
  obtain ⟨ds, c, r, hsplit, hds, hc⟩ := exists_split (p := isdigit) hzero (by decide)
  have hfield : IntField (j ++ c₀ :: r₀) j ds c r := by
    refine ⟨by rw [hsplit], hj, hds, hc, ?_⟩
    rintro rfl
    rwa [← (List.cons.inj hsplit).1]
  refine ⟨_, _, getIntParameter_eq_some_iff.2 ⟨j, ds, c, r, hfield, rfl, rfl⟩, ?_⟩
  have hj0 : j.count 0 = 0 := List.count_eq_zero.2 fun h0 => absurd (hj 0 h0) (by decide)
  have hds0 : ds.count 0 = 0 := List.count_eq_zero.2 fun h0 => absurd (hds 0 h0) (by decide)
  rw [hfield.drop_eq, hsplit, List.count_append, List.count_append, hj0, hds0]
  omega

/-- A name is read wherever a terminator lies ahead, and at most one is stepped over. -/
theorem exists_fileField {m : Bytes} (h : 0 < m.count 0) :
    ∃ p w c r, FileField m p w c r ∧ m.count 0 ≤ r.count 0 + 1 := by
  obtain ⟨p, c₀, r₀, rfl, hp, hc₀⟩ :=
    exists_split (p := separator) (List.count_pos_iff.1 h) (by decide)
  have hp0 : p.count 0 = 0 := List.count_eq_zero.2 fun h0 => absurd (hp 0 h0) (by decide)
  have hzero : 0 ∈ c₀ :: r₀ := by
    rw [List.count_append, hp0] at h
    exact List.count_pos_iff.1 (by omega)
  obtain ⟨w, c, r, hsplit, hw, hc⟩ := exists_split (p := isalnum) hzero (by decide)
  have hw0 : ∀ v : Bytes, (∀ x ∈ v, isalnum x = true) → v.count 0 = 0 := fun v hv =>
    List.count_eq_zero.2 fun h0 => absurd (hv 0 h0) (by decide)
  rcases Nat.lt_or_ge 6 w.length with h6 | h6
  · -- the name is cut after its sixth character
    obtain ⟨x, v, hv⟩ := List.exists_cons_of_ne_nil
      (List.ne_nil_of_length_pos (show 0 < (w.drop 6).length by simp; omega))
    have hsplit' : c₀ :: r₀ = w.take 6 ++ x :: (v ++ c :: r) := by
      rw [hsplit, ← List.cons_append, ← hv, ← List.append_assoc, List.take_append_drop]
    refine ⟨p, w.take 6, x, v ++ c :: r, ⟨by rw [hsplit'], hp,
      fun y hy => hw y (List.mem_of_mem_take hy), by simp, Or.inl (by simp; omega), ?_⟩, ?_⟩
    · intro hnil
      have hlen : (w.take 6).length = 0 := by rw [hnil]; rfl
      rw [List.length_take] at hlen
      omega
    · rw [hsplit', List.count_append, List.count_append,
        hp0, hw0 _ fun y hy => hw y (List.mem_of_mem_take hy), List.count_cons]
      split <;> omega
  · refine ⟨p, w, c, r, ⟨by rw [hsplit], hp, hw, h6, Or.inr hc, ?_⟩, ?_⟩
    · rintro rfl
      rwa [← (List.cons.inj hsplit).1]
    · rw [hsplit, List.count_append, List.count_append, hp0, hw0 w hw, List.count_cons]
      split <;> omega

theorem exists_getFileParameter {m : Bytes} (h : 0 < m.count 0) (buf : CharArray) (o : ℕ) :
    ∃ pos buf', getFileParameter m buf o = some (pos, buf') ∧
      m.count 0 ≤ (m.drop pos).count 0 + 1 := by
  obtain ⟨p, w, c, r, hfield, hcount⟩ := exists_fileField h
  exact ⟨_, _, getFileParameter_eq_some_iff.2 ⟨p, w, c, r, hfield, rfl, rfl⟩,
    by rwa [hfield.drop_eq]⟩

/-- A path is read wherever two terminators lie ahead, and at most two are stepped over. -/
theorem exists_getPath (parameters : Bytes) (pos : ℕ) (h : 2 ≤ (parameters.drop pos).count 0)
    (buf : CharArray) : ∃ pos' path, getPath parameters pos buf = some (pos', path) ∧
      (parameters.drop pos).count 0 ≤ (parameters.drop pos').count 0 + 2 := by
  obtain ⟨n, buf₁, hread, hcount⟩ :=
    exists_getFileParameter (m := parameters.drop pos) (by omega) buf 0
  rw [List.drop_drop] at hcount
  simp only [getPath, hread, Option.bind_eq_bind, Option.bind_some]
  split
  · obtain ⟨n', buf₂, hread', hcount'⟩ :=
      exists_getFileParameter (m := parameters.drop (pos + n)) (by omega)
        (Function.update buf₁ 6 0) 7
    rw [List.drop_drop] at hcount'
    simp only [hread', Option.bind_some, Option.pure_def]
    split
    · exact ⟨_, _, rfl, by omega⟩
    · exact ⟨_, _, rfl, by omega⟩
  · exact ⟨_, _, rfl, by omega⟩

section

variable (cacheDir : Bytes)

/-- With two terminators ahead, `GrantChown` returns. -/
theorem isSome_grantChown {m : Bytes} (h : 2 ≤ m.count 0) (buf : CharArray) :
    (grantChown cacheDir m buf).isSome = true := by
  obtain ⟨pos, uid, hread, hcount⟩ := exists_getIntParameter (m := m) (by omega)
  simp only [grantChown, hread, Option.bind_eq_bind, Option.bind_some, Option.pure_def]
  split
  · rfl
  obtain ⟨n, gid, hread', hcount'⟩ := exists_getIntParameter (m := m.drop pos) (by omega)
  simp only [hread', Option.bind_some]
  split
  · rfl
  rw [List.drop_drop] at hcount'
  obtain ⟨pos', path, hpath, -⟩ := exists_getPath m (pos + n) (by omega) buf
  simp only [hpath, Option.bind_some]
  split <;> rfl

/-- With two terminators ahead, `GrantPublish` returns. -/
theorem isSome_grantPublish {m : Bytes} (h : 2 ≤ m.count 0) (buf buf' : CharArray) :
    (grantPublish cacheDir m buf buf').isSome = true := by
  obtain ⟨pos, f, hread, hcount⟩ := exists_getFileParameter (m := m) (by omega) buf 0
  obtain ⟨pos', f', hread', -⟩ := exists_getFileParameter (m := m.drop pos) (by omega) buf' 0
  simp only [grantPublish, hread, Option.bind_eq_bind, Option.bind_some, hread', Option.pure_def]
  split <;> rfl

/-- With three terminators ahead, `CreateFileChunk` returns. -/
theorem isSome_createFileChunk {m : Bytes} (h : 3 ≤ m.count 0) (fs : FileSystem) (reads : Reads)
    (buf : CharArray) : (createFileChunk cacheDir fs reads m buf).isSome = true := by
  obtain ⟨pos, part, hread, hcount⟩ := exists_getIntParameter (m := m) (by omega)
  simp only [createFileChunk, hread, Option.bind_eq_bind, Option.bind_some, Option.pure_def]
  split
  · rfl
  obtain ⟨pos', path, hpath, hcount'⟩ := exists_getPath m pos (by omega) buf
  simp only [hpath, Option.bind_some]
  split
  · rfl
  · rename_i f
    obtain ⟨n, f', hread', -⟩ := exists_getFileParameter (m := m.drop pos') (by omega) f 0
    simp only [hread', Option.bind_some]
    split <;> rfl

end

end AwsS3fs.Grant
