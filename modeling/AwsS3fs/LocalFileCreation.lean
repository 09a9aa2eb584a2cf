/-
**Creating a local file.**

`CreateLocalFile` (`filecache.c`) makes a new file with a name of its own, asks
`Query_CreateLocalFile` (`filecachedb.c`) for a row with this name, and removes the file again if
the path has a row already or there is no row.  `Query_CreateLocalFile` says that the path has a
row, but it does not say that it has none, and the name that it copies in the first case is one
character longer than what `FindFile` has written.

Main definitions:

* `AwsS3fs.CacheFiles` — the tables, and the files that are not complete;
* `AwsS3fs.Memory` — what memory holds before it is written;
* `AwsS3fs.queryCreateLocalFile`, `AwsS3fs.CacheFiles.createLocalFile` — the functions of
  `filecachedb.c` and `filecache.c`;
* `AwsS3fs.AllOrNothing` — what should come of a call;
* `AwsS3fs.MemoryHarmless` — memory that does no harm.

Main results:

* `AwsS3fs.allOrNothing_createLocalFile` — **exactly when a call is all or nothing**: whatever
  memory holds, only a call that fails is.
-/

import AwsS3fs.OpenHandles
import AwsS3fs.UploadSource

set_option relaxedAutoImplicit false
set_option autoImplicit false

namespace AwsS3fs

open CLib Grant

/-! ### The functions -/

/-- The tables, and the names of the files in `CACHE_INPROGRESS`. -/
structure CacheFiles where
  names : Names
  inprogress : List Bytes

/-- What memory holds before it is written: `exists` and the new `localfile` in `CreateLocalFile`,
and `localname` in `Query_CreateLocalFile`. -/
structure Memory where
  alreadyExists : Bool
  localfile : CharArray
  localname : CharArray

/-- A call of `CreateLocalFile`.  An insertion that the constraints allow may fail nevertheless. -/
structure CreateCall where
  bucket : Option Bytes
  file : FileArguments
  parentId : ℤ
  insertable : Bool

/-- `strncpy( localfile, localname, 7 )`. -/
def copyLocalname (localfile localname : CharArray) : CharArray :=
  localfile.write 0 ((localname.str 7 ++ List.replicate 7 0).take 7)

/-- `Query_CreateLocalFile`: the tables, the identifier, `localfile` and `alreadyExists`. -/
def queryCreateLocalFile (names : Names) (memory : Memory) (call : CreateCall)
    (localfile : CharArray) : Names × ℤ × CharArray × Bool :=
  match names.findFile call.file.path with
  | some row =>
      (names.addSubscriptions row.id 1, row.id,
        copyLocalname localfile (copyName memory.localname row.localname), true)
  | none =>
      let inserted :=
        if call.insertable then
          names.newFile call.bucket call.file call.parentId (localfile.str 7)
        else (names, 0)
      (inserted.1, inserted.2, localfile, memory.alreadyExists)

/-- What comes of a call. -/
structure CreatedFile where
  state : CacheFiles
  id : ℤ
  localfile : CharArray

/-- `CreateLocalFile`, with the name that `mkstemp` finds. -/
def CacheFiles.createLocalFile (s : CacheFiles) (memory : Memory) (call : CreateCall)
    (unique : Name) : CreatedFile :=
  let inprogress := s.inprogress ++ [unique.chars]
  let localfile := memory.localfile.write 0 (unique.chars ++ [0])
  let (names, id, localfile, alreadyExists) :=
    queryCreateLocalFile s.names memory call localfile
  { state :=
      { names := names
        inprogress :=
          if alreadyExists || id = 0 then inprogress.filter (· ≠ unique.chars) else inprogress }
    id := id
    localfile := localfile }

/-! ### What should come of a call -/

/-- Nothing is in the way of an insertion but a row of the same name. -/
structure CreateCall.Possible (call : CreateCall) (names : Names) : Prop where
  insertable : call.insertable = true
  bucket : call.bucket.isSome = true
  parent : ∃ p ∈ names.parents, p.id = call.parentId

/-- **A call is all or nothing**: it adds a row and keeps the new file, or counts one more
subscription of the row that there is, or fails, and otherwise leaves no trace. -/
structure AllOrNothing (s : CacheFiles) (call : CreateCall) (unique : Name)
    (created : CreatedFile) : Prop where
  inserted : s.names.findFile call.file.path = none → call.Possible s.names →
    created.state.names.parents = s.names.parents ∧
    created.state.names.files = s.names.files ++
      [⟨created.id, call.bucket.getD [], call.file.path, unique.chars, 1, call.parentId,
        call.file.uid, call.file.gid, call.file.permissions, call.file.mtime⟩] ∧
    created.id ≠ 0 ∧ created.localfile.str 7 = unique.chars ∧
    created.state.inprogress = s.inprogress ++ [unique.chars]
  found : ∀ row, s.names.findFile call.file.path = some row →
    created.state.names.parents = s.names.parents ∧
    created.state.names.files = s.names.files.map (fun r =>
      if r.id = row.id then { r with subscriptions := r.subscriptions + 1 } else r) ∧
    created.id = row.id ∧ created.localfile.str 7 = row.localname ∧
    created.state.inprogress = s.inprogress
  failed : s.names.findFile call.file.path = none → ¬ call.Possible s.names →
    created.state = s ∧ created.id = 0

/-- **Memory does no harm**: of a new row `exists` is false by chance, and its time fits; behind the
name of an old row there is a terminator by chance. -/
structure MemoryHarmless (names : Names) (memory : Memory) (call : CreateCall) : Prop where
  inserted : names.findFile call.file.path = none → call.Possible names →
    memory.alreadyExists = false ∧ wrapInt call.file.mtime = call.file.mtime
  found : ∀ row, names.findFile call.file.path = some row → memory.localname 6 = 0

/-- The local names of the rows have six characters. -/
def SixCharacters (names : Names) : Prop :=
  ∀ row ∈ names.files, row.localname.length = 6 ∧ ∀ ch ∈ row.localname, ch ≠ 0

/-! ### The name -/

/-- The name of a row is terminated if `localname` was terminated before. -/
theorem str_copyLocalname {name : Bytes} (hlength : name.length = 6)
    (hzero : ∀ ch ∈ name, ch ≠ 0) (localfile localname : CharArray) :
    (copyLocalname localfile (copyName localname name)).str 7 =
      if localname 6 = 0 then name else name ++ [localname 6] := by
  have hcopy : copyName localname name = localname.write 0 name := by
    rw [copyName, ← hlength, List.take_left]
  have hget : ∀ l, (h : l < name.length) → localname.write 0 name l = name[l] := by
    intro l hl
    simpa using CharArray.write_get localname 0 name hl
  have hsix : localname.write 0 name 6 = localname 6 :=
    CharArray.write_of_ge localname 0 name (by omega)
  rw [copyLocalname, hcopy]
  split
  case isTrue hend =>
    have hstr : (localname.write 0 name).str 7 = name :=
      CharArray.str_eq_of_get hzero hget (by rw [hlength, hsix, hend]) (by omega)
    have htake : (name ++ List.replicate 7 0).take 7 = name ++ [0] := by
      rw [List.take_append, List.take_of_length_le (by omega), hlength]
      rfl
    rw [hstr, htake, CharArray.str_write _ hzero (by omega)]
  case isFalse hend =>
    -- the character behind the name is copied with it
    have hzero' : ∀ ch ∈ name ++ [localname 6], ch ≠ 0 := by
      intro ch hch
      rcases List.mem_append.1 hch with hmem | hlast
      · exact hzero ch hmem
      · rwa [List.mem_singleton.1 hlast]
    have hseven : (name ++ [localname 6]).length = 7 := by simp [hlength]
    have hget' : ∀ l, (h : l < (name ++ [localname 6]).length) →
        localname.write 0 name l = (name ++ [localname 6])[l] := by
      intro l hl
      rw [List.getElem_append]
      split
      · exact hget l ‹_›
      · obtain rfl : l = 6 := by omega
        simpa [hlength] using hsix
    have hstr : (localname.write 0 name).str 7 = name ++ [localname 6] :=
      hseven ▸ CharArray.str_full_of_get hzero' hget'
    have htake : (name ++ [localname 6] ++ List.replicate 7 0).take 7 = name ++ [localname 6] := by
      rw [← hseven, List.take_left]
    rw [hstr, htake]
    have hwritten := CharArray.str_full_of_get hzero'
      (fun l hl => by simpa using CharArray.write_get localfile 0 (name ++ [localname 6]) hl)
    rwa [hseven] at hwritten

/-- The name of the new file. -/
theorem str_unique (localfile : CharArray) (unique : Name) :
    (localfile.write 0 (unique.chars ++ [0])).str 7 = unique.chars :=
  CharArray.str_write localfile (fun _ hch => unique.ne_zero hch) (by rw [unique.length_eq]; omega)

/-! ### The tables -/

/-- The row that an insertion adds, if nothing is in its way. -/
theorem newFile_of_possible {names : Names} {call : CreateCall} (localname : Bytes)
    (habsent : names.findFile call.file.path = none) (hpossible : call.Possible names) :
    let id := rowid (names.files.map (·.id))
    let inserted := names.newFile call.bucket call.file call.parentId localname
    inserted.2 = id ∧ inserted.1.parents = names.parents ∧
      inserted.1.files = names.files ++
        [⟨id, call.bucket.getD [], call.file.path, localname, 1, call.parentId, call.file.uid,
          call.file.gid, call.file.permissions, wrapInt call.file.mtime⟩] := by
  obtain ⟨bucket, hbucket⟩ := Option.isSome_iff_exists.1 hpossible.bucket
  have hcreatable : names.Creatable call.file.path call.parentId :=
    ⟨by simpa using List.find?_eq_none.1 habsent, hpossible.parent⟩
  simp only [Names.newFile, hbucket, dif_pos hcreatable]
  exact ⟨trivial, rfl, rfl⟩

/-- An insertion that something is in the way of adds nothing. -/
theorem newFile_of_not_possible {names : Names} {call : CreateCall} (localname : Bytes)
    (hinsertable : call.insertable = true) (hpossible : ¬ call.Possible names) :
    names.newFile call.bucket call.file call.parentId localname = (names, 0) := by
  cases hbucket : call.bucket with
  | none => rfl
  | some bucket =>
      have hcreatable : ¬ names.Creatable call.file.path call.parentId := fun h =>
        hpossible ⟨hinsertable, by simp [hbucket], h.2⟩
      simp only [Names.newFile, dif_neg hcreatable]

variable {s : CacheFiles} {call : CreateCall} {unique : Name}

/-! ### The three ways -/

/-- What is left of the new file. -/
theorem filter_unique {inprogress : List Bytes} (hfresh : unique.chars ∉ inprogress) :
    (inprogress ++ [unique.chars]).filter (· ≠ unique.chars) = inprogress := by
  rw [List.filter_append, List.filter_eq_self.2]
  · simp
  · intro name hname
    simpa using fun h : name = unique.chars => hfresh (h ▸ hname)

/-- **A path without a row, and nothing in the way.** -/
theorem createLocalFile_inserted (unique : Name) (memory : Memory)
    (hfind : s.names.findFile call.file.path = none) (hpossible : call.Possible s.names) :
    let id := rowid (s.names.files.map (·.id))
    let created := s.createLocalFile memory call unique
    created.state.names.parents = s.names.parents ∧
      created.state.names.files = s.names.files ++
        [⟨id, call.bucket.getD [], call.file.path, unique.chars, 1, call.parentId, call.file.uid,
          call.file.gid, call.file.permissions, wrapInt call.file.mtime⟩] ∧
      created.id = id ∧ created.localfile.str 7 = unique.chars ∧
      created.state.inprogress =
        if memory.alreadyExists then (s.inprogress ++ [unique.chars]).filter (· ≠ unique.chars)
        else s.inprogress ++ [unique.chars] := by
  obtain ⟨hid, hparents, hfiles⟩ := newFile_of_possible unique.chars hfind hpossible
  have hne : rowid (s.names.files.map (·.id)) ≠ 0 := (rowid_pos _).ne'
  simp only [CacheFiles.createLocalFile, queryCreateLocalFile, hfind, hpossible.insertable, if_true,
    str_unique, hid, hparents, hfiles, hne, decide_false, Bool.or_false]
  exact ⟨trivial, trivial, trivial, trivial, trivial⟩

/-- **A path that has a row.** -/
theorem createLocalFile_found (memory : Memory) (hsix : SixCharacters s.names)
    (hfresh : unique.chars ∉ s.inprogress) {row : FileEntry}
    (hfind : s.names.findFile call.file.path = some row) :
    let created := s.createLocalFile memory call unique
    created.state.names = s.names.addSubscriptions row.id 1 ∧ created.id = row.id ∧
      created.localfile.str 7 =
        (if memory.localname 6 = 0 then row.localname
          else row.localname ++ [memory.localname 6]) ∧
      created.state.inprogress = s.inprogress := by
  obtain ⟨hlength, hzero⟩ := hsix row (Names.findFile_eq_some_iff.1 hfind).1
  simp only [CacheFiles.createLocalFile, queryCreateLocalFile, hfind, Bool.true_or, if_true,
    str_copyLocalname hlength hzero, filter_unique hfresh]
  exact ⟨trivial, trivial, trivial, trivial⟩

/-- **An insertion that fails** leaves no trace. -/
theorem createLocalFile_failed (memory : Memory) (hfresh : unique.chars ∉ s.inprogress)
    (hfind : s.names.findFile call.file.path = none) (hpossible : ¬ call.Possible s.names) :
    let created := s.createLocalFile memory call unique
    created.state = s ∧ created.id = 0 := by
  have hinserted :
      (if call.insertable then s.names.newFile call.bucket call.file call.parentId unique.chars
        else (s.names, 0)) = (s.names, 0) := by
    split
    · exact newFile_of_not_possible unique.chars ‹_› hpossible
    · rfl
  simp only [CacheFiles.createLocalFile, queryCreateLocalFile, hfind, str_unique, hinserted,
    decide_true, Bool.or_true, if_true, filter_unique hfresh]
  exact ⟨trivial, trivial⟩

/-! ### All or nothing -/

/-- A call is all or nothing if memory does no harm, and only then. -/
theorem allOrNothing_iff (s : CacheFiles) (memory : Memory) (call : CreateCall) (unique : Name)
    (hsix : SixCharacters s.names) (hfresh : unique.chars ∉ s.inprogress) :
    AllOrNothing s call unique (s.createLocalFile memory call unique) ↔
      MemoryHarmless s.names memory call := by
  constructor
  · intro h
    refine ⟨fun hfind hpossible => ?_, fun row hfind => ?_⟩
    · obtain ⟨-, hfiles, -, -, hkept⟩ := h.inserted hfind hpossible
      obtain ⟨-, hfiles', -, -, hkept'⟩ :=
        createLocalFile_inserted unique memory hfind hpossible
      constructor
      · cases hexists : memory.alreadyExists with
        | false => rfl
        | true =>
            -- the new file would be removed
            rw [hkept', hexists, if_pos rfl, filter_unique hfresh] at hkept
            simp at hkept
      · rw [hfiles'] at hfiles
        have hrow := List.singleton_injective (List.append_cancel_left hfiles)
        exact congrArg FileEntry.mtime hrow
    · obtain ⟨-, -, -, hname, -⟩ := h.found row hfind
      obtain ⟨-, -, hname', -⟩ := createLocalFile_found memory hsix hfresh hfind
      rw [hname'] at hname
      by_contra hne
      rw [if_neg hne] at hname
      simp at hname
  · intro h
    refine ⟨fun hfind hpossible => ?_, fun row hfind => ?_, fun hfind hpossible => ?_⟩
    · obtain ⟨hexists, htime⟩ := h.inserted hfind hpossible
      obtain ⟨hparents, hfiles, hid, hname, hkept⟩ :=
        createLocalFile_inserted unique memory hfind hpossible
      rw [htime] at hfiles
      rw [hexists, if_neg Bool.false_ne_true] at hkept
      refine ⟨hparents, ?_, ?_, hname, hkept⟩
      · rw [hid]
        exact hfiles
      · rw [hid]
        exact (rowid_pos _).ne'
    · obtain ⟨hnames, hid, hname, hkept⟩ := createLocalFile_found memory hsix hfresh hfind
      rw [if_pos (h.found row hfind)] at hname
      refine ⟨?_, ?_, hid, hname, hkept⟩
      · rw [hnames]
        rfl
      · rw [hnames]
        rfl
    · exact createLocalFile_failed memory hfresh hfind hpossible

/-- **Exactly when a call is all or nothing**, and that whatever memory holds only a call that fails
is. -/
theorem allOrNothing_createLocalFile (s : CacheFiles) (call : CreateCall) (unique : Name)
    (hsix : SixCharacters s.names) (hfresh : unique.chars ∉ s.inprogress) :
    (∀ memory, AllOrNothing s call unique (s.createLocalFile memory call unique) ↔
      MemoryHarmless s.names memory call) ∧
    ((∀ memory, AllOrNothing s call unique (s.createLocalFile memory call unique)) ↔
      s.names.findFile call.file.path = none ∧ ¬ call.Possible s.names) := by
  have hmemory := fun memory => allOrNothing_iff s memory call unique hsix hfresh
  refine ⟨hmemory, ?_⟩
  simp only [hmemory]
  constructor
  · intro h
    -- no byte of this memory is zero
    have hdirty := h ⟨true, fun _ => 1, fun _ => 1⟩
    have hfind : s.names.findFile call.file.path = none := by
      cases hfind : s.names.findFile call.file.path with
      | none => rfl
      | some row => exact absurd (hdirty.found row hfind) (by decide)
    refine ⟨hfind, fun hpossible => ?_⟩
    exact absurd (hdirty.inserted hfind hpossible).1 (by decide)
  · rintro ⟨hfind, hpossible⟩ memory
    exact ⟨fun _ h => absurd h hpossible, fun row h => by rw [hfind] at h; cases h⟩

/-- A parent, and no files. -/
def CacheFiles.oneParent : CacheFiles where
  names := { Names.empty with
    parents := [⟨1, ascii "https://bucket.s3.amazonaws.com/", Name.digits.chars, 0, 0, 0o755⟩]
    parent_known := by
      intro r hr
      exact absurd hr List.not_mem_nil }
  inprogress := []

/-- A new file in the parent. -/
def CreateCall.report : CreateCall :=
  ⟨some (ascii "bucket"), ⟨ascii "https://bucket.s3.amazonaws.com/report", 1000, 100, 0o644,
    1326000000⟩, 1, true⟩

/-- The file is created if `exists` is false by chance. -/
theorem allOrNothing_createLocalFile_report :
    AllOrNothing .oneParent .report .sample
      (CacheFiles.oneParent.createLocalFile ⟨false, fun _ => 0, fun _ => 0⟩ .report .sample) :=
  ((allOrNothing_createLocalFile .oneParent .report .sample
    (fun _ hrow => absurd hrow List.not_mem_nil) List.not_mem_nil).1 _).2
    ⟨fun _ _ => ⟨rfl, by decide⟩, fun _ hfind => by cases hfind⟩

/-- The row stays and the file is removed if `exists` is true by chance. -/
theorem not_allOrNothing_createLocalFile_report :
    ¬ AllOrNothing .oneParent .report .sample
      (CacheFiles.oneParent.createLocalFile ⟨true, fun _ => 0, fun _ => 0⟩ .report .sample) := by
  intro h
  obtain ⟨-, -, -, -, hkept⟩ := h.inserted rfl ⟨rfl, rfl, _, List.mem_singleton_self _, rfl⟩
  exact absurd hkept (by decide)

end AwsS3fs
