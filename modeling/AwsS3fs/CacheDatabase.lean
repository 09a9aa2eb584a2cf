/-
**The tables of the transfers.**

The cache keeps its transfers in an SQLite database, `filecachedb.c`: one table of the transfers in
both directions, with at most one row for a file, and one of the parts of the uploads, whose rows
are deleted along with the transfer they belong to.  A database is the four tables that the queries
about transfers read, together with the constraints that the schema declares on them, so every
query below is a function from databases to databases that keeps the constraints.  An insertion
that would break one fails and changes nothing.

Where a query asks for any one row (`LIMIT 1`), the row that SQLite happens to deliver is left open:
the query takes a number that picks one of the rows there are.  The identifiers of the transfers
are not used twice, so that a row can be told from a later one for the same file; no query of the
program depends on their values.

Main definitions:

* `AwsS3fs.Database` — the tables and their constraints;
* `AwsS3fs.Database.addDownload`, `AwsS3fs.Database.addUpload`,
  `AwsS3fs.Database.createMultiparts` — a download or an upload is queued;
* `AwsS3fs.Database.findPendingUpload`, `AwsS3fs.Database.getUpload` — the next file, and the next
  part of a file, that waits for upload;
* `AwsS3fs.Database.deleteTransfer`, `AwsS3fs.Database.deleteUploadTransfer` — a transfer is done;
* `AwsS3fs.Database.entries` — what identifies the transfers that are queued.

Main results:

* `AwsS3fs.Database.entry_unique` — there is at most one transfer for a file;
* `AwsS3fs.Database.mem_entries_insertTransfer`, `AwsS3fs.Database.mem_entries_deleteTransfer` —
  **what an insertion and a deletion do to the queued transfers**.
-/

import Mathlib.Data.List.Nodup
import AwsS3fs.Lib.Bytes

set_option relaxedAutoImplicit false
set_option autoImplicit false

namespace AwsS3fs

open CLib

/-- The column `direction`, `'u'` or `'d'`. -/
inductive Direction
  | u
  | d
  deriving DecidableEq, Repr

/-- A row of `files`, with the columns that transfers use. -/
structure FileRow where
  id : ℤ
  filesize : Option ℤ
  iscached : Bool
  deriving DecidableEq, Repr

/-- A row of `transfers`. -/
structure TransferRow where
  id : ℕ
  owner : ℤ
  file : ℤ
  filesize : Option ℤ
  direction : Direction
  uploadid : Option Bytes
  deriving DecidableEq, Repr

/-- A row of `transferparts`. -/
structure PartRow where
  transfer : ℕ
  part : ℤ
  inprogress : Bool
  completed : Bool
  etag : Option Bytes
  deriving DecidableEq, Repr

/-- The tables with the constraints of the schema: `PRIMARY KEY`, `UNIQUE`, `CHECK` and
`FOREIGN KEY`. -/
structure Database where
  files : List FileRow
  /-- The column `uid` of `users`. -/
  users : List ℤ
  transfers : List TransferRow
  transferparts : List PartRow
  /-- The identifier of the next transfer. -/
  nextId : ℕ
  id_unique : (transfers.map (·.id)).Nodup
  file_unique : (transfers.map (·.file)).Nodup
  id_lt : ∀ t ∈ transfers, t.id < nextId
  owner_known : ∀ t ∈ transfers, t.owner ∈ users
  file_known : ∀ t ∈ transfers, ∃ r ∈ files, r.id = t.file
  transfer_known : ∀ p ∈ transferparts, ∃ t ∈ transfers, t.id = p.transfer
  part_range : ∀ p ∈ transferparts, 0 < p.part ∧ p.part < 10001

/-- One row of the rows there are, as `LIMIT 1` delivers it. -/
def pick {α : Type*} (rows : List α) (choice : ℕ) : Option α := rows[choice % rows.length]?

theorem mem_of_pick {α : Type*} {rows : List α} {choice : ℕ} {x : α}
    (h : pick rows choice = some x) : x ∈ rows := List.mem_of_getElem? h

namespace Database

variable (db : Database)

/-! ### Queueing a transfer -/

/-- The constraints on a new row of `transfers` for a file and an owner. -/
def Insertable (file owner : ℤ) : Prop :=
  (∃ r ∈ db.files, r.id = file) ∧ owner ∈ db.users ∧ ∀ t ∈ db.transfers, t.file ≠ file

instance (file owner : ℤ) : Decidable (db.Insertable file owner) :=
  inferInstanceAs (Decidable (_ ∧ _ ∧ _))

/-- Inserting a row into `transfers`. -/
def insertTransfer (file owner : ℤ) (filesize : Option ℤ) (direction : Direction) : Database :=
  if h : db.Insertable file owner then
    { db with
      transfers := db.transfers ++ [⟨db.nextId, owner, file, filesize, direction, none⟩]
      nextId := db.nextId + 1
      id_unique := by
        rw [List.map_append, List.nodup_append]
        refine ⟨db.id_unique, by simp, ?_⟩
        intro i hi i' hi'
        obtain ⟨t, ht, rfl⟩ := List.mem_map.1 hi
        rw [List.map_singleton, List.mem_singleton] at hi'
        exact hi' ▸ (db.id_lt t ht).ne
      file_unique := by
        obtain ⟨-, -, hnew⟩ := h
        rw [List.map_append, List.nodup_append]
        refine ⟨db.file_unique, by simp, ?_⟩
        intro f hf f' hf'
        obtain ⟨t, ht, rfl⟩ := List.mem_map.1 hf
        rw [List.map_singleton, List.mem_singleton] at hf'
        exact hf' ▸ hnew t ht
      id_lt := by
        intro t ht
        rcases List.mem_append.1 ht with ht | ht
        · exact Nat.lt_succ_of_lt (db.id_lt t ht)
        · rw [List.mem_singleton.1 ht]
          exact Nat.lt_succ_self _
      owner_known := by
        intro t ht
        rcases List.mem_append.1 ht with ht | ht
        · exact db.owner_known t ht
        · rw [List.mem_singleton.1 ht]
          exact h.2.1
      file_known := by
        intro t ht
        rcases List.mem_append.1 ht with ht | ht
        · exact db.file_known t ht
        · rw [List.mem_singleton.1 ht]
          exact h.1
      transfer_known := by
        intro p hp
        obtain ⟨t, ht, hid⟩ := db.transfer_known p hp
        exact ⟨t, List.mem_append_left _ ht, hid⟩ }
  else db

/-- `Query_AddDownload`. -/
def addDownload (file owner : ℤ) : Database := db.insertTransfer file owner none .d

/-- `Query_AddUpload`. -/
def addUpload (file owner filesize : ℤ) : Database :=
  db.insertTransfer file owner (some filesize) .u

/-- Inserting one part of the upload of a file.  Without a transfer of the file the insertion fails,
because `transfer` would be `NULL`. -/
def insertPart (file part : ℤ) : Database :=
  match h : db.transfers.find? (fun t => t.direction = .u ∧ t.file = file) with
  | none => db
  | some t =>
      if hpart : 0 < part ∧ part < 10001 then
        { db with
          transferparts := db.transferparts ++ [⟨t.id, part, false, false, none⟩]
          transfer_known := by
            intro p hp
            rcases List.mem_append.1 hp with hp | hp
            · exact db.transfer_known p hp
            · rw [List.mem_singleton.1 hp]
              exact ⟨t, List.mem_of_find?_eq_some h, rfl⟩
          part_range := by
            intro p hp
            rcases List.mem_append.1 hp with hp | hp
            · exact db.part_range p hp
            · rw [List.mem_singleton.1 hp]
              exact hpart }
      else db

/-- `Query_CreateMultiparts`. -/
def createMultiparts (file parts : ℤ) : Database :=
  (List.range parts.toNat).foldl (fun db (i : ℕ) => db.insertPart file (i + 1)) db

/-! ### The next upload -/

/-- The parts that are neither uploaded nor being uploaded, each with its transfer. -/
def pendingUploads : List (TransferRow × PartRow) :=
  db.transfers.flatMap fun t =>
    (db.transferparts.filter fun p =>
      p.transfer = t.id ∧ t.direction = .u ∧ p.inprogress = false ∧ p.completed = false).map (t, ·)

/-- `Query_FindPendingUpload`.  The file is read as an `int`, and `0` says that there is none. -/
def findPendingUpload (choice : ℕ) : ℤ :=
  match pick db.pendingUploads choice with
  | none => 0
  | some (t, _) => wrapInt t.file

/-- What `Query_GetUpload` delivers, so far as the transfer depends on it. -/
structure Upload where
  /-- The row of `transfers` that the query has found. -/
  transfer : ℕ
  part : ℤ
  uploadId : Option Bytes
  filesize : ℤ
  deriving DecidableEq, Repr

/-- The column `filesize` of `files`, `NULL` read as `0`. -/
def sizeOfFile (file : ℤ) : ℤ := ((db.files.find? (·.id = file)).bind (·.filesize)).getD 0

/-- `Query_GetUpload`: a part of a file that waits for upload, if there is one. -/
def getUpload (file : ℤ) (choice : ℕ) : Option Upload :=
  (pick (db.pendingUploads.filter fun tp => tp.1.file = file) choice).map fun tp =>
    ⟨tp.1.id, tp.2.part, tp.1.uploadid, db.sizeOfFile file⟩

/-! ### Updates -/

/-- Changing rows of `transfers` in a column that no constraint is about. -/
def updateTransfers (g : TransferRow → TransferRow)
    (hg : ∀ t, (g t).id = t.id ∧ (g t).owner = t.owner ∧ (g t).file = t.file) : Database :=
  { db with
    transfers := db.transfers.map g
    id_unique := by
      rw [List.map_map, show (·.id) ∘ g = (·.id) from funext fun t => (hg t).1]
      exact db.id_unique
    file_unique := by
      rw [List.map_map, show (·.file) ∘ g = (·.file) from funext fun t => (hg t).2.2]
      exact db.file_unique
    id_lt := by
      simp only [List.forall_mem_map, hg]
      exact db.id_lt
    owner_known := by
      simp only [List.forall_mem_map, hg]
      exact db.owner_known
    file_known := by
      simp only [List.forall_mem_map, hg]
      exact db.file_known
    transfer_known := by
      intro p hp
      obtain ⟨t, ht, hid⟩ := db.transfer_known p hp
      exact ⟨g t, List.mem_map_of_mem ht, (hg t).1.trans hid⟩ }

/-- Changing rows of `transferparts` in a column that no constraint is about. -/
def updateParts (g : PartRow → PartRow)
    (hg : ∀ p, (g p).transfer = p.transfer ∧ (g p).part = p.part) : Database :=
  { db with
    transferparts := db.transferparts.map g
    transfer_known := by
      simp only [List.forall_mem_map, hg]
      exact db.transfer_known
    part_range := by
      simp only [List.forall_mem_map, hg]
      exact db.part_range }

/-- Changing rows of `files` in a column that no constraint is about. -/
def updateFiles (g : FileRow → FileRow) (hg : ∀ r, (g r).id = r.id) : Database :=
  { db with
    files := db.files.map g
    file_known := by
      intro t ht
      obtain ⟨r, hr, hid⟩ := db.file_known t ht
      exact ⟨g r, List.mem_map_of_mem hr, (hg r).trans hid⟩ }

/-- `Query_SetUploadId`. -/
def setUploadId (file : ℤ) (uploadId : Bytes) : Database :=
  db.updateTransfers (fun t => if t.file = file then { t with uploadid := some uploadId } else t)
    (fun t => by split <;> exact ⟨rfl, rfl, rfl⟩)

/-- `Query_SetPartETag`. -/
def setPartETag (file part : ℤ) (etag : Bytes) : Database :=
  db.updateParts
    (fun p => if p.part = part ∧ ∃ t ∈ db.transfers, t.id = p.transfer ∧ t.file = file
      then { p with etag := some etag } else p)
    (fun p => by split <;> exact ⟨rfl, rfl⟩)

/-- `Query_MarkFileAsCached`. -/
def markFileAsCached (file : ℤ) : Database :=
  db.updateFiles (fun r => if r.id = file then { r with iscached := true } else r)
    (fun r => by split <;> rfl)

/-- A file that a client has created becomes known, with the columns as `Query_CreateLocalFile`
leaves them. -/
def addFile (file : ℤ) : Database :=
  if ∃ r ∈ db.files, r.id = file then db
  else
    { db with
      files := db.files ++ [⟨file, none, false⟩]
      file_known := by
        intro t ht
        obtain ⟨r, hr, hid⟩ := db.file_known t ht
        exact ⟨r, List.mem_append_left _ hr, hid⟩ }

/-- `Query_AddUser`. -/
def addUser (uid : ℤ) : Database :=
  if uid ∈ db.users then db
  else
    { db with
      users := db.users ++ [uid]
      owner_known := fun t ht => List.mem_append_left _ (db.owner_known t ht) }

/-! ### The end of a transfer -/

/-- `Query_DeleteTransfer`: the transfer of a file, whatever its direction, and its parts. -/
def deleteTransfer (file : ℤ) : Database :=
  { db with
    transfers := db.transfers.filter (·.file ≠ file)
    transferparts := db.transferparts.filter fun p =>
      ∀ t ∈ db.transfers, t.id = p.transfer → t.file ≠ file
    id_unique := db.id_unique.sublist (List.filter_sublist.map _)
    file_unique := db.file_unique.sublist (List.filter_sublist.map _)
    id_lt := fun t ht => db.id_lt t (List.mem_of_mem_filter ht)
    owner_known := fun t ht => db.owner_known t (List.mem_of_mem_filter ht)
    file_known := fun t ht => db.file_known t (List.mem_of_mem_filter ht)
    transfer_known := by
      intro p hp
      obtain ⟨hp, hkept⟩ := List.mem_filter.1 hp
      obtain ⟨t, ht, hid⟩ := db.transfer_known p hp
      exact ⟨t, List.mem_filter.2 ⟨ht, by simpa using (of_decide_eq_true hkept) t ht hid⟩, hid⟩
    part_range := fun p hp => db.part_range p (List.mem_of_mem_filter hp) }

/-- `Query_DeleteUploadTransfer`, the same statement. -/
def deleteUploadTransfer (file : ℤ) : Database := db.deleteTransfer file

/-! ### The queued transfers -/

/-- What identifies a queued transfer. -/
structure Entry where
  id : ℕ
  file : ℤ
  direction : Direction
  deriving DecidableEq, Repr

end Database

/-- What a row of `transfers` says about the queue. -/
def TransferRow.entry (t : TransferRow) : Database.Entry := ⟨t.id, t.file, t.direction⟩

namespace Database

variable {db : Database}

/-- The queued transfers. -/
def entries (db : Database) : List Entry := db.transfers.map TransferRow.entry

theorem mem_entries {e : Entry} : e ∈ db.entries ↔ ∃ t ∈ db.transfers, t.entry = e := List.mem_map

/-- There is at most one transfer for a file. -/
theorem entry_unique {e e' : Entry} (he : e ∈ db.entries) (he' : e' ∈ db.entries)
    (hfile : e.file = e'.file) : e = e' := by
  obtain ⟨t, ht, rfl⟩ := mem_entries.1 he
  obtain ⟨t', ht', rfl⟩ := mem_entries.1 he'
  rw [List.inj_on_of_nodup_map db.file_unique ht ht' hfile]

/-- **What an insertion does to the queued transfers**: if the constraints allow it, it adds one. -/
theorem mem_entries_insertTransfer {file owner : ℤ} {filesize : Option ℤ} {direction : Direction}
    {e : Entry} :
    e ∈ (db.insertTransfer file owner filesize direction).entries ↔
      e ∈ db.entries ∨ db.Insertable file owner ∧ e = ⟨db.nextId, file, direction⟩ := by
  unfold insertTransfer
  split
  · rename_i h
    simp only [entries, List.map_append, List.mem_append, List.map_singleton, List.mem_singleton, h,
      true_and, TransferRow.entry]
  · rename_i h
    simp only [h, false_and, or_false]

/-- **What a deletion does to the queued transfers**: it removes the transfer of the file. -/
theorem mem_entries_deleteTransfer {file : ℤ} {e : Entry} :
    e ∈ (db.deleteTransfer file).entries ↔ e ∈ db.entries ∧ e.file ≠ file := by
  simp only [mem_entries, deleteTransfer, List.mem_filter, decide_eq_true_eq]
  constructor
  · rintro ⟨t, ⟨ht, hfile⟩, rfl⟩
    exact ⟨⟨t, ht, rfl⟩, hfile⟩
  · rintro ⟨⟨t, ht, rfl⟩, hfile⟩
    exact ⟨t, ⟨ht, hfile⟩, rfl⟩

/-- A transfer that a deletion has removed is one of the file. -/
theorem file_eq_of_deleted {file : ℤ} {e : Entry} (he : e ∈ db.entries)
    (hremoved : e ∉ (db.deleteTransfer file).entries) : e.file = file := by
  by_contra hne
  exact hremoved (mem_entries_deleteTransfer.2 ⟨he, hne⟩)

theorem insertable_iff {file owner : ℤ} :
    db.Insertable file owner ↔
      (∃ r ∈ db.files, r.id = file) ∧ owner ∈ db.users ∧ ∀ e ∈ db.entries, e.file ≠ file := by
  simp only [Insertable, entries, List.forall_mem_map, TransferRow.entry]

@[simp]
theorem entries_insertPart (file part : ℤ) : (db.insertPart file part).entries = db.entries := by
  unfold insertPart
  split
  · rfl
  · split <;> rfl

@[simp]
theorem entries_createMultiparts (file parts : ℤ) :
    (db.createMultiparts file parts).entries = db.entries := by
  unfold createMultiparts
  generalize List.range parts.toNat = l
  induction l generalizing db with
  | nil => rfl
  | cons i l ih => rw [List.foldl_cons, ih, entries_insertPart]

@[simp]
theorem entries_setUploadId (file : ℤ) (uploadId : Bytes) :
    (db.setUploadId file uploadId).entries = db.entries := by
  simp only [entries, setUploadId, updateTransfers, List.map_map]
  refine List.map_congr_left fun t _ => ?_
  simp only [Function.comp_apply, TransferRow.entry]
  split <;> rfl

@[simp]
theorem entries_addFile (file : ℤ) : (db.addFile file).entries = db.entries := by
  unfold addFile
  split <;> rfl

@[simp]
theorem entries_addUser (uid : ℤ) : (db.addUser uid).entries = db.entries := by
  unfold addUser
  split <;> rfl

theorem mem_pendingUploads {t : TransferRow} {p : PartRow} :
    (t, p) ∈ db.pendingUploads ↔
      t ∈ db.transfers ∧ p ∈ db.transferparts ∧ p.transfer = t.id ∧ t.direction = .u ∧
        p.inprogress = false ∧ p.completed = false := by
  simp only [pendingUploads, List.mem_flatMap, List.mem_map, List.mem_filter, decide_eq_true_eq,
    Prod.mk.injEq]
  constructor
  · rintro ⟨t', ht', p', ⟨hp', h⟩, rfl, rfl⟩
    exact ⟨ht', hp', h⟩
  · rintro ⟨ht, hp, h⟩
    exact ⟨t, ht, p, ⟨hp, h⟩, rfl, rfl⟩

/-- What an upload that was found is about: a part of an upload of the file that is queued. -/
theorem getUpload_eq_some {file : ℤ} {choice : ℕ} {up : Upload}
    (h : db.getUpload file choice = some up) :
    ∃ t p, (t, p) ∈ db.pendingUploads ∧ t.file = file ∧ t.id = up.transfer ∧ p.part = up.part := by
  obtain ⟨⟨t, p⟩, hpick, rfl⟩ := Option.map_eq_some_iff.1 h
  obtain ⟨hmem, hfile⟩ := List.mem_filter.1 (mem_of_pick hpick)
  exact ⟨t, p, hmem, of_decide_eq_true hfile, rfl, rfl⟩

/-- The upload that was found is queued. -/
theorem entry_of_getUpload {file : ℤ} {choice : ℕ} {up : Upload}
    (h : db.getUpload file choice = some up) : ⟨up.transfer, file, .u⟩ ∈ db.entries := by
  obtain ⟨t, p, hmem, rfl, hid, -⟩ := getUpload_eq_some h
  obtain ⟨ht, -, -, hdir, -⟩ := mem_pendingUploads.1 hmem
  refine mem_entries.2 ⟨t, ht, ?_⟩
  rw [TransferRow.entry, hid, hdir]

end Database

/-- A database with one file and one user. -/
def Database.oneFile : Database where
  files := [⟨7, none, false⟩]
  users := [1000]
  transfers := []
  transferparts := []
  nextId := 1
  id_unique := List.nodup_nil
  file_unique := List.nodup_nil
  id_lt := by simp
  owner_known := by simp
  file_known := by simp
  transfer_known := by simp
  part_range := by simp

end AwsS3fs
