/-
**The file that an upload is made from.**

A file that was downloaded or created lies in the shared cache under the local names of its
directory and of itself, where `GrantPublish` has put it.  `PutUpload` queues an upload of it,
`Query_GetUpload` says what there is to upload, and `BeginUpload` asks the grant process for a part
of it (`downloadqueue.c`, `filecachedb.c`).  Each of them finds the file and its size in its own
way.

`PutUpload` looks for the local name of the file alone, in an array that `FindFile` does not
terminate; the array and the result of a `stat` that fails hold anything.  `Query_GetUpload` reads
the column `filesize` of `files`, which no query writes.  And `BeginUpload` passes on the path that
the file has on the remote side.

Main definitions:

* `AwsS3fs.putUpload` — `PutUpload`, with the file that it looks for;
* `AwsS3fs.UploadData`, `AwsS3fs.getUploadData` — all that `Query_GetUpload` delivers;
* `AwsS3fs.removeHost`, `AwsS3fs.chunkRequest` — the request of `BeginUpload` for a part;
* `AwsS3fs.PublishedFile` — a file of the tables that is in the shared cache;
* `AwsS3fs.UploadsPublished` — what is uploaded is the published file.

Main results:

* `AwsS3fs.unsized_of_run` — no file ever has a size in the table `files`;
* `AwsS3fs.extractFilepath_ne` — the path in the request for a part is not that of a published file;
* `AwsS3fs.not_uploadsPublished` — **what is uploaded is never the published file**.
-/

import AwsS3fs.CacheClients
import AwsS3fs.FileNames
import AwsS3fs.GrantMessages
import AwsS3fs.UploadParts

set_option relaxedAutoImplicit false
set_option autoImplicit false

namespace AwsS3fs

open CLib Grant

/-! ### From the file to the request -/

section

variable (cacheDir : Bytes) (fs : FileSystem)

/-- `strncpy( localname, basename, 6 )`. -/
def copyName (localname : CharArray) (basename : Bytes) : CharArray :=
  localname.write 0 ((basename ++ List.replicate 6 0).take 6)

/-- `PutUpload`, with what the array `localfile` and the structure `fileStat` hold before they are
written. -/
def putUpload (names : Names) (db : Database) (remotepath : Bytes) (owner : ℤ)
    (localfile : CharArray) (st_size : ℤ) : Database :=
  let found := names.findFile remotepath
  let localfile := (found.map fun r => copyName localfile r.localname).getD localfile
  let localpath := cacheFiles cacheDir ++ localfile.str 14
  let filesize : ℤ := ((fs localpath).map fun node => (node.size : ℤ)).getD st_size
  db.putUpload ((found.map (·.id)).getD 0) owner filesize

end

/-- All that `Query_GetUpload` delivers. -/
structure UploadData where
  part : ℤ
  bucket : Bytes
  remotePath : Bytes
  uploadId : Option Bytes
  uid : ℤ
  gid : ℤ
  permissions : ℤ
  filesize : ℤ
  localPath : Bytes
  keyId : Bytes
  secretKey : Bytes

/-- `Query_GetUpload`: a part of a file that waits for upload, joined with the file, its directory
and the keys of the user who has queued it. -/
def getUploadData (names : Names) (db : Database) (keys : ℤ → Bytes × Bytes) (fileId : ℤ)
    (choice : ℕ) : Option UploadData := do
  let up ← db.getUpload fileId choice
  let t ← db.transfers.find? (·.id = up.transfer)
  let r ← names.files.find? (·.id = fileId)
  let p ← names.parents.find? (·.id = r.parent)
  return {
    part := up.part
    bucket := r.bucket
    remotePath := r.remotename
    uploadId := up.uploadId
    uid := r.uid
    gid := r.gid
    permissions := r.permissions
    filesize := up.filesize
    localPath := p.localname ++ slash :: r.localname
    keyId := (keys t.owner).1
    secretKey := (keys t.owner).2 }

/-- `^http[s]?://.+\.amazonaws\.com`. -/
def hostPart (nl : Newlines) : Regex UInt8 :=
  .seq .bos (.seq (.literal (ascii "http")) (.seq (.run (· = 115) 0 (some 1))
    (.seq (.literal (ascii "://")) (.seq (.run (!nl.isNewline ·) 1 none)
      (.literal (ascii ".amazonaws.com"))))))

/-- `(/.*)`, group `1`. -/
def pathPart (nl : Newlines) : Regex UInt8 :=
  .group 1 (.seq (.run (· = 47) 1 (some 1)) (.run (!nl.isNewline ·) 0 none))

/-- The expression `^http[s]?://.+\.amazonaws\.com(/.*)$` for the path in a URL. -/
def removeHost (nl : Newlines) : Regex UInt8 :=
  .seq (hostPart nl) (.seq (pathPart nl) (.eos nl.isNewline))

/-- The file path of `ExtractHostAndFilepath`, which is `NULL` without a match. -/
def extractFilepath (nl : Newlines) (remotePath : Bytes) : Option Bytes :=
  ((removeHost nl).search true remotePath).map fun found => found.2.fetch 1

/-- The request for a part that `BeginUpload` makes through `CreateFilePart`, where the length of a
file path that is `NULL` ends the program.  With several parts the file path has been released by
then; a size of `0` makes one part. -/
def chunkRequest (nl : Newlines) (u : UploadData) (fileChunkPath : Bytes) : Option Message :=
  (extractFilepath nl u.remotePath).map fun filepath =>
    (createFilePart filepath u.part u.filesize fileChunkPath).2

/-- The text of a request for a part of a file in the shared cache. -/
def chunkText (part : ℤ) (filepath fileChunkPath : Bytes) : Bytes :=
  ascii "CHUNK " ++ (formatInt part ++ colon :: (filepath ++ colon :: fileChunkPath))

/-! ### Published files -/

/-- A file of the tables that `GrantPublish` has put into the shared cache. -/
structure PublishedFile (cacheDir : Bytes) (fs : FileSystem) (names : Names) (db : Database) where
  row : FileEntry
  parent : ParentEntry
  mem_files : row ∈ names.files
  mem_parents : parent ∈ names.parents
  parent_id : parent.id = row.parent
  known : db.Known row.id
  /-- The local names. -/
  directory : Name
  filename : Name
  directory_eq : parent.localname = directory.chars
  filename_eq : row.localname = filename.chars
  content : Bytes
  content_ne_nil : content ≠ []
  published : fs (cacheFiles cacheDir ++ (directory.chars ++ slash :: filename.chars)) =
    some (.file content)

namespace PublishedFile

variable {cacheDir : Bytes} {fs : FileSystem} {names : Names} {db : Database}
  (file : PublishedFile cacheDir fs names db)

/-- The path in the shared cache. -/
def path : Bytes := file.directory.chars ++ slash :: file.filename.chars

/-- The size. -/
def size : ℕ := file.content.length

theorem size_pos : 0 < file.size := List.length_pos_iff.2 file.content_ne_nil

end PublishedFile

section

variable {cacheDir : Bytes} {fs : FileSystem} {names : Names} {db : Database}

/-- **What is uploaded is the published file**: `PutUpload` records its size, `Query_GetUpload`
delivers the size, the keys of the owner and a part of the file, and the request for this part names
the file. -/
def UploadsPublished (nl : Newlines) (keys : ℤ → Bytes × Bytes)
    (file : PublishedFile cacheDir fs names db) (owner : {uid : ℤ // uid ∈ db.users})
    (localfile : CharArray) (st_size : ℤ) (choice : ℕ) : Prop :=
  let queued := putUpload cacheDir fs names db file.row.remotename owner localfile st_size
  (∃ t ∈ queued.transfers, t.file = file.row.id ∧ t.direction = .u ∧
      t.filesize = some (file.size : ℤ)) ∧
    ∃ u, getUploadData names queued keys file.row.id choice = some u ∧ u.filesize = file.size ∧
      u.keyId = (keys owner).1 ∧ u.secretKey = (keys owner).2 ∧
      u.part ∈ Database.partNumbers file.size ∧
      ∀ fileChunkPath, (chunkRequest nl u fileChunkPath).map (·.text) =
        some (chunkText u.part file.path fileChunkPath)

end

/-! ### The size -/

/-- No file has a size in the table `files`. -/
def Database.Unsized (db : Database) : Prop := ∀ r ∈ db.files, r.filesize = none

theorem unsized_of_transition {s s' : State} {action : Action} (ht : Transition s action s')
    (h : s.db.Unsized) : s'.db.Unsized := by
  rcases files_of_transition ht with hfiles | ⟨fileId, -, hdb⟩ | ⟨j, d, status, -, -, -, rfl⟩
  · intro r hr
    exact h r (hfiles ▸ hr)
  · intro r hr
    rw [hdb] at hr
    rcases s.db.files_addFile fileId with hfiles | hfiles
    · exact h r (hfiles ▸ hr)
    · rcases List.mem_append.1 (hfiles ▸ hr) with hr | hr
      · exact h r hr
      · rw [List.mem_singleton.1 hr]
  · intro r hr
    obtain ⟨r₀, hr₀, rfl⟩ := List.mem_map.1 hr
    split
    · exact h r₀ hr₀
    · exact h r₀ hr₀

/-- **No file ever has a size in the table `files`.** -/
theorem unsized_of_run {db : Database} (hnew : db.files = []) {actions : List Action} {q : State}
    (hrun : Runs.run step (State.initial db) actions = some q) : q.db.Unsized := by
  have hstep : ∀ (s : State) (action : Action) (s' : State), s.db.Unsized →
      step s action = some s' → s'.db.Unsized :=
    fun s action s' h hs => unsized_of_transition (transition_of_step hs) h
  have hinitial : (State.initial db).db.Unsized := by
    intro r hr
    rw [show (State.initial db).db.files = [] from hnew] at hr
    cases hr
  exact Runs.run_inv_of_step hstep hinitial hrun

section

variable {cacheDir : Bytes} {fs : FileSystem} {names : Names} {db : Database}

theorem unsized_putUpload (h : db.Unsized) (remotepath : Bytes) (owner : ℤ) (localfile : CharArray)
    (st_size : ℤ) :
    (putUpload cacheDir fs names db remotepath owner localfile st_size).Unsized := by
  unfold Database.Unsized putUpload Database.putUpload Database.addUpload
  simp only [Database.files_createMultiparts, Database.files_insertTransfer]
  exact h

/-- So the size that `Query_GetUpload` delivers is `0`. -/
theorem filesize_getUploadData (h : db.Unsized) {keys : ℤ → Bytes × Bytes} {fileId : ℤ}
    {choice : ℕ} {u : UploadData} (hu : getUploadData names db keys fileId choice = some u) :
    u.filesize = 0 := by
  have hzero : ∀ file, db.sizeOfFile file = 0 := by
    intro file
    cases hfind : db.files.find? (·.id = file) with
    | none => rw [Database.sizeOfFile, hfind]; rfl
    | some r =>
        rw [Database.sizeOfFile, hfind, Option.bind_some, h r (List.mem_of_find?_eq_some hfind)]
        rfl
  obtain ⟨up, hup, hu⟩ := Option.bind_eq_some_iff.1 hu
  obtain ⟨t, -, hu⟩ := Option.bind_eq_some_iff.1 hu
  obtain ⟨r, -, hu⟩ := Option.bind_eq_some_iff.1 hu
  obtain ⟨p, -, hu⟩ := Option.bind_eq_some_iff.1 hu
  obtain ⟨tp, -, rfl⟩ := Option.map_eq_some_iff.1 hup
  cases hu
  exact hzero fileId

/-! ### The path -/

/-- The path of a URL begins with a slash. -/
theorem head?_of_extractFilepath {nl : Newlines} {remotePath filepath : Bytes}
    (h : extractFilepath nl remotePath = some filepath) : filepath.head? = some 47 := by
  obtain ⟨⟨before, m⟩, hsearch, rfl⟩ := Option.map_eq_some_iff.1 h
  obtain ⟨-, -, hm⟩ := Regex.search_spec hsearch
  obtain ⟨m₁, h₁, m₂, h₂, rfl⟩ := Regex.mem_attempts_seq.1 hm
  obtain ⟨m₃, h₃, m₄, h₄, rfl⟩ := Regex.mem_attempts_seq.1 h₂
  obtain ⟨path, hpath, rfl⟩ := Regex.mem_attempts_group.1 h₃
  obtain ⟨m₅, h₅, m₆, h₆, rfl⟩ := Regex.mem_attempts_seq.1 hpath
  obtain ⟨-, hgroups₅, hlo, -, htext⟩ := Regex.mem_attempts_run.1 h₅
  obtain ⟨c, text, hcons⟩ := List.exists_cons_of_ne_nil (List.length_pos_iff.1 hlo)
  have hc : c = 47 := by simpa using htext c (by simp [hcons])
  -- the only group is that of the path
  have hhost : m₁.groups = [] :=
    Regex.groups_of_ungrouped (by simp [hostPart, Regex.ungrouped]) h₁
  have hrest : m₆.groups = [] := Regex.groups_of_ungrouped rfl h₆
  simp [Regex.Match.fetch, Regex.Match.append, hhost, hgroups₅, hrest, hcons, hc]

/-- **The path in the request for a part is not that of a published file.** -/
theorem extractFilepath_ne (nl : Newlines) (remotePath : Bytes)
    (file : PublishedFile cacheDir fs names db) :
    extractFilepath nl remotePath ≠ some file.path := by
  intro heq
  obtain ⟨c, chars, hchars⟩ := List.exists_cons_of_ne_nil file.directory.ne_nil
  have halnum : isalnum c = true := file.directory.alnum c (by simp [hchars])
  have hhead := head?_of_extractFilepath heq
  rw [PublishedFile.path, hchars, List.cons_append, List.head?_cons, Option.some_inj] at hhead
  rw [hhead] at halnum
  exact absurd halnum (by decide)

theorem text_chunkRequest_ne (nl : Newlines) (u : UploadData)
    (file : PublishedFile cacheDir fs names db) (fileChunkPath : Bytes) :
    (chunkRequest nl u fileChunkPath).map (·.text) ≠
      some (chunkText u.part file.path fileChunkPath) := by
  intro heq
  rw [chunkRequest, Option.map_map] at heq
  obtain ⟨filepath, hfilepath, heq⟩ := Option.map_eq_some_iff.1 heq
  have hpath := List.append_cancel_left (List.append_cancel_left heq)
  rw [List.cons.injEq] at hpath
  rw [List.append_cancel_right hpath.2] at hfilepath
  exact extractFilepath_ne nl u.remotePath file hfilepath

/-! ### The upload -/

variable {nl : Newlines} {keys : ℤ → Bytes × Bytes} {localfile : CharArray} {st_size : ℤ}
  {choice : ℕ}

theorem filesize_ne_of_unsized (h : db.Unsized) (file : PublishedFile cacheDir fs names db)
    (owner : ℤ) {u : UploadData}
    (hu : getUploadData names (putUpload cacheDir fs names db file.row.remotename owner localfile
      st_size) keys file.row.id choice = some u) : u.filesize ≠ file.size := by
  rw [filesize_getUploadData (unsized_putUpload h _ _ _ _) hu]
  have hpos := file.size_pos
  omega

theorem not_uploadsPublished_of_unsized (h : db.Unsized)
    (file : PublishedFile cacheDir fs names db) (owner : {uid : ℤ // uid ∈ db.users}) :
    ¬ UploadsPublished nl keys file owner localfile st_size choice := by
  rintro ⟨-, u, hu, hsize, -⟩
  exact filesize_ne_of_unsized h file owner hu hsize

/-- **What is uploaded is never the published file.**  In every state that the cache can be in,
whatever `Query_GetUpload` delivers has not the size of the file, and the request for the part does
not name the file. -/
theorem not_uploadsPublished {db₀ : Database} (hnew : db₀.files = []) {actions : List Action}
    {q : State} (hrun : Runs.run step (State.initial db₀) actions = some q)
    (file : PublishedFile cacheDir fs names q.db) (owner : {uid : ℤ // uid ∈ q.db.users}) :
    ¬ UploadsPublished nl keys file owner localfile st_size choice ∧
      ∀ u, getUploadData names (putUpload cacheDir fs names q.db file.row.remotename owner localfile
          st_size) keys file.row.id choice = some u →
        u.filesize ≠ file.size ∧ ∀ fileChunkPath,
          (chunkRequest nl u fileChunkPath).map (·.text) ≠
            some (chunkText u.part file.path fileChunkPath) := by
  have hunsized := unsized_of_run hnew hrun
  exact ⟨not_uploadsPublished_of_unsized hunsized file owner,
    fun u hu => ⟨filesize_ne_of_unsized hunsized file owner hu, text_chunkRequest_ne nl u file⟩⟩

end

/-- A cache with a user and no file. -/
def Database.oneUser : Database :=
  { Database.oneFile with
    files := []
    file_known := by simp [Database.oneFile] }

/-- A file that the user has created. -/
def Names.oneFile : Names where
  parents := [⟨1, ascii "/", ascii "dddddd", 0, 0, 493⟩]
  files := [⟨1, ascii "bucket", ascii "https://s3.amazonaws.com/a", ascii "ffffff", 1, 1, 1000,
    1000, 420, 0⟩]
  id_pos := by simp
  id_unique := by simp
  remotename_unique := by simp
  parent_known := by simp

/-- The shared cache with a file of one byte. -/
def oneByte : FileSystem := fun path =>
  if path = ascii "/cache/files/dddddd/ffffff" then some (.file [0]) else none

/-- It is published. -/
def onePublished :
    PublishedFile (ascii "/cache") oneByte .oneFile (Database.oneUser.addFile 1) where
  row := ⟨1, ascii "bucket", ascii "https://s3.amazonaws.com/a", ascii "ffffff", 1, 1, 1000, 1000,
    420, 0⟩
  parent := ⟨1, ascii "/", ascii "dddddd", 0, 0, 493⟩
  mem_files := List.mem_singleton_self _
  mem_parents := List.mem_singleton_self _
  parent_id := rfl
  known := Database.known_addFile
  directory := ⟨ascii "dddddd", rfl, List.all_eq_true.mp rfl⟩
  filename := ⟨ascii "ffffff", rfl, List.all_eq_true.mp rfl⟩
  directory_eq := rfl
  filename_eq := rfl
  content := [0]
  content_ne_nil := by simp
  published := rfl

/-- The keys of every user. -/
def sameKeys : ℤ → Bytes × Bytes := fun _ => (ascii "keyid", ascii "secretkey")

theorem not_uploadsPublished_onePublished :
    ∃ q, Runs.run step (State.initial .oneUser) [.addFile 1] = some q ∧
      ∃ file : PublishedFile (ascii "/cache") oneByte .oneFile q.db,
        ∃ owner : {uid : ℤ // uid ∈ q.db.users},
          ¬ UploadsPublished .lineFeed sameKeys file owner (fun _ => 0) 0 0 := by
  have hrun : Runs.run step (State.initial .oneUser) [.addFile 1] =
      some { State.initial .oneUser with db := Database.oneUser.addFile 1 } := rfl
  have hnew : Database.oneUser.files = [] := rfl
  exact ⟨_, hrun, onePublished, ⟨1000, by decide⟩,
    (not_uploadsPublished hnew hrun onePublished ⟨1000, by decide⟩).1⟩

/-- A file of one byte is uploaded as a file of no byte. -/
theorem uploads_nothing :
    ¬ UploadsPublished .lineFeed sameKeys onePublished ⟨1000, by decide⟩ (fun _ => 0) 0 0 := by
  refine not_uploadsPublished_of_unsized ?_ _ _
  intro r hr
  rw [List.mem_singleton.1 hr]

end AwsS3fs
