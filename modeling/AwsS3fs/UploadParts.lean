/-
**The parts of the uploads in the tables.**

`PutUpload` (`downloadqueue.c`) queues an upload by two queries: `Query_AddUpload` inserts the
transfer with the size that the file has at that moment, and `Query_CreateMultiparts` inserts as
many parts as `NumberOfMultiparts` says for that size.  The result of the first query is ignored, so
the second one also runs if a constraint has kept the first from inserting anything.  A completed
upload is deleted by `Query_DeleteUploadTransfer`, and its parts along with it.

This module is about sequences of such calls.  Of a file that is queued a second time before its
first upload is done, the parts are inserted once more, for a size that the transfer does not have;
and this is the only way in which the two tables ever get out of step.

Main definitions:

* `AwsS3fs.Database.putUpload` — the two queries of `PutUpload`;
* `AwsS3fs.UploadAction`, `AwsS3fs.uploadStep` — a call of `PutUpload`, or a completed upload;
* `AwsS3fs.Database.InStep` — every upload has its parts, each once, and there are no others;
* `AwsS3fs.Unqueued` — an upload is queued for a file of which no upload is queued.

Main results:

* `AwsS3fs.Database.inStep_putUpload_iff` — what one call does;
* `AwsS3fs.inStep_iff_unqueued` — **the tables stay in step exactly if no file is queued twice**.
-/

import AwsS3fs.CacheDatabase
import AwsS3fs.Multipart
import AwsS3fs.Lib.Runs

set_option relaxedAutoImplicit false
set_option autoImplicit false

namespace AwsS3fs

open CLib

namespace Database

/-- The queries of `PutUpload`, for the file that was found and the size that it has.  Whether the
first one has inserted a row is not looked at. -/
def putUpload (db : Database) (file owner filesize : ℤ) : Database :=
  (db.addUpload file owner filesize).createMultiparts file (numberOfMultiparts filesize)

/-- The numbers of the parts of a transfer. -/
def partsOf (db : Database) (transfer : ℕ) : List ℤ :=
  (db.transferparts.filter (·.transfer = transfer)).map (·.part)

/-- The numbers of the parts that a file of this size has. -/
def partNumbers (filesize : ℤ) : List ℤ :=
  (List.range (numberOfMultiparts filesize).toNat).map fun (i : ℕ) => (i + 1 : ℤ)

/-- The tables are in step: every upload has the parts of a file of its size, each of them once, and
every part is one of an upload. -/
structure InStep (db : Database) : Prop where
  parts : ∀ t ∈ db.transfers, t.direction = .u →
    ∃ filesize, t.filesize = some filesize ∧ (db.partsOf t.id).Perm (partNumbers filesize)
  others : ∀ p ∈ db.transferparts, ∃ t ∈ db.transfers, t.direction = .u ∧ t.id = p.transfer

/-- No upload of a file is queued. -/
def NoUpload (db : Database) (file : ℤ) : Prop :=
  ∀ t ∈ db.transfers, t.direction = .u → t.file ≠ file

instance (db : Database) (file : ℤ) : Decidable (db.NoUpload file) :=
  inferInstanceAs (Decidable (∀ t ∈ db.transfers, _))

variable {db : Database} {file owner : ℤ}

/-! ### The part numbers -/

/-- A file that is not empty has at least one part. -/
theorem length_partNumbers_pos {s : ℕ} (hs : 0 < s) : 0 < (partNumbers s).length := by
  have hpos := numberOfMultiparts_pos hs
  rw [partNumbers, List.length_map, List.length_range]
  omega

theorem partNumbers_range {s : ℕ} {part : ℤ} (h : part ∈ partNumbers s) :
    0 < part ∧ part < 10001 := by
  have hle := numberOfMultiparts_le s
  obtain ⟨i, hi, rfl⟩ := List.mem_map.1 h
  rw [List.mem_range] at hi
  omega

/-! ### `Query_CreateMultiparts` -/

/-- The search of `Query_CreateMultiparts` for the transfer that the parts belong to. -/
theorem find?_upload_eq_none :
    db.transfers.find? (fun t => t.direction = .u ∧ t.file = file) = none ↔ db.NoUpload file := by
  simp only [List.find?_eq_none, NoUpload, decide_eq_true_eq, not_and, ne_eq]

theorem createMultiparts_eq_foldl (parts : ℤ) :
    db.createMultiparts file parts =
      ((List.range parts.toNat).map fun (i : ℕ) => (i + 1 : ℤ)).foldl
        (fun db part => db.insertPart file part) db := by
  rw [createMultiparts, List.foldl_map]

/-- Without an upload of the file no part can be inserted. -/
theorem insertPart_of_noUpload (h : db.NoUpload file) (part : ℤ) :
    db.insertPart file part = db := by
  unfold insertPart
  split
  · rfl
  · rename_i hfind
    rw [find?_upload_eq_none.2 h] at hfind
    cases hfind

theorem createMultiparts_of_noUpload (h : db.NoUpload file) (parts : ℤ) :
    db.createMultiparts file parts = db := by
  rw [createMultiparts_eq_foldl]
  generalize List.map _ (List.range parts.toNat) = numbers
  induction numbers with
  | nil => rfl
  | cons part numbers ih => rw [List.foldl_cons, insertPart_of_noUpload h, ih]

/-- A part as it is inserted. -/
def newPart (transfer : ℕ) (part : ℤ) : PartRow := ⟨transfer, part, false, false, none⟩

theorem transfers_insertPart (part : ℤ) : (db.insertPart file part).transfers = db.transfers := by
  unfold insertPart
  split
  · rfl
  · split <;> rfl

theorem transferparts_insertPart {t : TransferRow} {part : ℤ}
    (hfind : db.transfers.find? (fun t => t.direction = .u ∧ t.file = file) = some t)
    (hpart : 0 < part ∧ part < 10001) :
    (db.insertPart file part).transferparts = db.transferparts ++ [newPart t.id part] := by
  unfold insertPart
  split
  · rename_i hnone
    rw [hfind] at hnone
    cases hnone
  · rename_i t' hfind'
    rw [hfind, Option.some.injEq] at hfind'
    rw [dif_pos hpart, hfind']
    rfl

/-- With an upload of the file all parts are inserted, whatever parts there are already. -/
theorem transferparts_foldl_insertPart {t : TransferRow} :
    ∀ {numbers : List ℤ} {db : Database},
      db.transfers.find? (fun t => t.direction = .u ∧ t.file = file) = some t →
      (∀ part ∈ numbers, 0 < part ∧ part < 10001) →
      (numbers.foldl (fun db part => db.insertPart file part) db).transfers = db.transfers ∧
      (numbers.foldl (fun db part => db.insertPart file part) db).transferparts =
        db.transferparts ++ numbers.map (newPart t.id) := by
  intro numbers
  induction numbers with
  | nil => exact fun _ _ => ⟨rfl, (List.append_nil _).symm⟩
  | cons part numbers ih =>
      intro db hfind hrange
      have hfind' : (db.insertPart file part).transfers.find?
          (fun t => t.direction = .u ∧ t.file = file) = some t := by
        rw [transfers_insertPart, hfind]
      obtain ⟨htransfers, hparts⟩ :=
        ih hfind' fun part hpart => hrange part (List.mem_cons_of_mem _ hpart)
      rw [List.foldl_cons, htransfers, hparts, transfers_insertPart,
        transferparts_insertPart hfind (hrange part List.mem_cons_self)]
      exact ⟨rfl, by rw [List.append_assoc]; rfl⟩

/-- **What `Query_CreateMultiparts` does** if there is an upload of the file. -/
theorem createMultiparts_of_upload {t : TransferRow} {s : ℕ}
    (hfind : db.transfers.find? (fun t => t.direction = .u ∧ t.file = file) = some t) :
    (db.createMultiparts file (numberOfMultiparts s)).transfers = db.transfers ∧
    (db.createMultiparts file (numberOfMultiparts s)).transferparts =
      db.transferparts ++ (partNumbers s).map (newPart t.id) := by
  rw [createMultiparts_eq_foldl]
  exact transferparts_foldl_insertPart hfind fun _ => partNumbers_range

/-! ### One call of `PutUpload` -/

/-- Nothing is queued yet. -/
theorem inStep_of_nil (htransfers : db.transfers = []) (hparts : db.transferparts = []) :
    db.InStep := by
  constructor
  · intro t ht
    rw [htransfers] at ht
    cases ht
  · intro p hp
    rw [hparts] at hp
    cases hp

/-- The numbers of the parts of a transfer, after more parts have been inserted for it. -/
theorem partsOf_append_self {db' : Database} {transfer : ℕ} {numbers : List ℤ}
    (h : db'.transferparts = db.transferparts ++ numbers.map (newPart transfer)) :
    db'.partsOf transfer = db.partsOf transfer ++ numbers := by
  have hnew : (numbers.map (newPart transfer)).filter (·.transfer = transfer) =
      numbers.map (newPart transfer) := by
    rw [List.filter_eq_self]
    intro p hp
    obtain ⟨part, -, rfl⟩ := List.mem_map.1 hp
    exact decide_eq_true rfl
  have hparts : (numbers.map (newPart transfer)).map (·.part) = numbers := by
    rw [List.map_map]
    exact List.map_id numbers
  rw [partsOf, h, List.filter_append, List.map_append, hnew, hparts]
  rfl

/-- The parts of the other transfers are the same. -/
theorem partsOf_append_of_ne {db' : Database} {transfer transfer' : ℕ} {numbers : List ℤ}
    (h : db'.transferparts = db.transferparts ++ numbers.map (newPart transfer))
    (hne : transfer' ≠ transfer) : db'.partsOf transfer' = db.partsOf transfer' := by
  have hnew : (numbers.map (newPart transfer)).filter (·.transfer = transfer') = [] := by
    rw [List.filter_eq_nil_iff]
    intro p hp
    obtain ⟨part, -, rfl⟩ := List.mem_map.1 hp
    exact fun h => hne (of_decide_eq_true h).symm
  rw [partsOf, h, List.filter_append, hnew, List.append_nil]
  rfl

/-- A transfer that has not been inserted yet has no parts. -/
theorem partsOf_nextId : db.partsOf db.nextId = [] := by
  rw [partsOf, List.map_eq_nil_iff, List.filter_eq_nil_iff]
  intro p hp
  obtain ⟨t, ht, hid⟩ := db.transfer_known p hp
  have := db.id_lt t ht
  simp only [decide_eq_true_eq]
  omega

/-- The transfer and its parts are both inserted. -/
theorem inStep_putUpload_of_insertable {s : ℕ} (h : db.InStep) (hins : db.Insertable file owner) :
    (db.putUpload file owner s).InStep := by
  have hadd : (db.addUpload file owner s).transfers =
      db.transfers ++ [⟨db.nextId, owner, file, some (s : ℤ), .u, none⟩] := by
    simp only [addUpload, insertTransfer, dif_pos hins]
  have haddParts : (db.addUpload file owner s).transferparts = db.transferparts := by
    simp only [addUpload, insertTransfer, dif_pos hins]
  have hnone : db.transfers.find? (fun t => t.direction = .u ∧ t.file = file) = none :=
    find?_upload_eq_none.2 fun t ht _ => hins.2.2 t ht
  have hfind : (db.addUpload file owner s).transfers.find?
      (fun t => t.direction = .u ∧ t.file = file) =
        some ⟨db.nextId, owner, file, some (s : ℤ), .u, none⟩ := by
    rw [hadd, List.find?_append, hnone]
    simp
  obtain ⟨htransfers, hparts⟩ := createMultiparts_of_upload (s := s) hfind
  rw [hadd] at htransfers
  rw [haddParts] at hparts
  constructor
  · intro t ht hdir
    rcases List.mem_append.1 (htransfers ▸ ht) with hold | hnew
    · obtain ⟨filesize, hsize, hperm⟩ := h.parts t hold hdir
      exact ⟨filesize, hsize, by rwa [putUpload, partsOf_append_of_ne hparts (db.id_lt t hold).ne]⟩
    · rw [List.mem_singleton.1 hnew]
      refine ⟨s, rfl, ?_⟩
      rw [putUpload, partsOf_append_self hparts, partsOf_nextId, List.nil_append]
  · intro p hp
    rw [putUpload, htransfers]
    rcases List.mem_append.1 (hparts ▸ hp) with hold | hnew
    · obtain ⟨t, ht, htp⟩ := h.others p hold
      exact ⟨t, List.mem_append_left _ ht, htp⟩
    · obtain ⟨part, -, rfl⟩ := List.mem_map.1 hnew
      exact ⟨_, List.mem_append_right _ (List.mem_singleton_self _), rfl, rfl⟩

theorem addUpload_of_not_insertable {s : ℤ} (hins : ¬ db.Insertable file owner) :
    db.addUpload file owner s = db := by
  rw [addUpload, insertTransfer, dif_neg hins]

/-- The upload that is queued already gets the parts once more. -/
theorem not_inStep_putUpload {s : ℕ} (hs : 0 < s) (h : db.InStep) (hup : ¬ db.NoUpload file) :
    ¬ (db.putUpload file owner s).InStep := by
  intro h'
  have hins : ¬ db.Insertable file owner := fun hins => hup fun t ht _ => hins.2.2 t ht
  obtain ⟨t, hfind⟩ := Option.ne_none_iff_exists'.1 (mt find?_upload_eq_none.1 hup)
  obtain ⟨htransfers, hparts⟩ := createMultiparts_of_upload (s := s) hfind
  have ht : t ∈ db.transfers := List.mem_of_find?_eq_some hfind
  have hfound := List.find?_some hfind
  have hdir : t.direction = .u := (of_decide_eq_true hfound).1
  rw [putUpload, addUpload_of_not_insertable hins] at h'
  obtain ⟨filesize, hsize, hperm⟩ := h.parts t ht hdir
  obtain ⟨filesize', hsize', hperm'⟩ := h'.parts t (htransfers ▸ ht) hdir
  obtain rfl : filesize = filesize' := Option.some.inj (hsize.symm.trans hsize')
  -- the parts of the transfer are as many as before, and more by the ones that were inserted
  have hlength := hperm'.length_eq
  rw [partsOf_append_self hparts, List.length_append, hperm.length_eq] at hlength
  have := length_partNumbers_pos hs
  omega

/-- **What one call does**: the tables stay in step exactly if no upload of the file is queued. -/
theorem inStep_putUpload_iff {s : ℕ} (hs : 0 < s) (h : db.InStep) :
    (db.putUpload file owner s).InStep ↔ db.NoUpload file := by
  refine ⟨fun h' => not_not.1 fun hup => not_inStep_putUpload hs h hup h', fun hno => ?_⟩
  by_cases hins : db.Insertable file owner
  · exact inStep_putUpload_of_insertable h hins
  · -- the file is being downloaded, or the file or the owner is unknown, and nothing is inserted
    rwa [putUpload, addUpload_of_not_insertable hins, createMultiparts_of_noUpload hno]

/-! ### A completed upload -/

/-- A completed upload is deleted with its parts, and the others keep theirs. -/
theorem inStep_deleteUploadTransfer (h : db.InStep) (file : ℤ) :
    (db.deleteUploadTransfer file).InStep := by
  have hkept : ∀ t ∈ db.transfers, t.file ≠ file →
      (db.deleteUploadTransfer file).partsOf t.id = db.partsOf t.id := by
    intro t ht hfile
    simp only [partsOf, deleteUploadTransfer, deleteTransfer, List.filter_filter]
    congr 1
    refine List.filter_congr fun p _ => ?_
    simp only [Bool.and_eq_left_iff_imp, decide_eq_true_eq]
    rintro htp t' ht' hid
    rwa [List.inj_on_of_nodup_map db.id_unique ht' ht (hid.trans htp)]
  constructor
  · intro t ht hdir
    obtain ⟨ht, hfile⟩ := List.mem_filter.1 ht
    rw [hkept t ht (of_decide_eq_true hfile)]
    exact h.parts t ht hdir
  · intro p hp
    obtain ⟨hp, hall⟩ := List.mem_filter.1 hp
    obtain ⟨t, ht, hdir, hid⟩ := h.others p hp
    exact ⟨t, List.mem_filter.2 ⟨ht, by simpa using of_decide_eq_true hall t ht hid⟩, hdir, hid⟩

end Database

/-! ### Any sequence of calls -/

/-- What the tables of the uploads go through. -/
inductive UploadAction
  /-- `PutUpload` is called for a file that has this size. -/
  | put (file owner : ℤ) (filesize : ℕ)
  /-- An upload of a file has been completed. -/
  | complete (file : ℤ)
  deriving DecidableEq, Repr

/-- A call of `PutUpload` for a file that is not empty, or a completed upload. -/
def uploadStep (db : Database) : UploadAction → Option Database
  | .put file owner filesize =>
      if 0 < filesize then some (db.putUpload file owner filesize) else none
  | .complete file => some (db.deleteUploadTransfer file)

/-- An upload is queued for a file of which no upload is queued. -/
def Unqueued (db : Database) : UploadAction → Database → Prop
  | .put file _ _, _ => db.NoUpload file
  | .complete _, _ => True

instance (db : Database) (action : UploadAction) (db' : Database) :
    Decidable (Unqueued db action db') := by
  cases action <;> unfold Unqueued <;> infer_instance

/-- One step keeps the tables in step exactly if it queues no upload twice. -/
theorem inStep_uploadStep_iff {db db' : Database} {action : UploadAction} (h : db.InStep)
    (hstep : uploadStep db action = some db') : db'.InStep ↔ Unqueued db action db' := by
  cases action with
  | put file owner s =>
      simp only [uploadStep] at hstep
      split at hstep <;> cases hstep
      exact Database.inStep_putUpload_iff ‹_› h
  | complete file =>
      cases hstep
      exact iff_of_true (Database.inStep_deleteUploadTransfer h file) trivial

/-- **The tables stay in step exactly if no file is queued twice**: they are in step after every
beginning of a sequence of calls if and only if each call of `PutUpload` finds no upload of its file
in the queue. -/
theorem inStep_iff_unqueued (db : Database) (h : db.InStep) (actions : List UploadAction) :
    (∀ pre, pre <+: actions → ∀ db', Runs.run uploadStep db pre = some db' → db'.InStep) ↔
      Runs.Along uploadStep Unqueued db actions := by
  have hstep : ∀ (db : Database) (action : UploadAction) (db' : Database), True → db.InStep →
      uploadStep db action = some db' → (db'.InStep ↔ Unqueued db action db') := by
    intro db action db' _ h hstep
    exact inStep_uploadStep_iff h hstep
  exact Runs.forall_prefix_iff_along (fun _ _ _ _ _ => trivial) hstep actions trivial h

/-- Two files are queued, one of them is done and queued again with another size. -/
theorem inStep_queuedAgain :
    ∃ db', Runs.run uploadStep (Database.oneFile.addFile 8)
        [UploadAction.put 7 1000 5, .put 8 1000 1, .complete 7, .put 7 1000 9] = some db' ∧
      db'.InStep := by
  refine ⟨_, rfl, ?_⟩
  have halong : Runs.Along uploadStep Unqueued (Database.oneFile.addFile 8)
      [UploadAction.put 7 1000 5, .put 8 1000 1, .complete 7, .put 7 1000 9] := by
    decide
  exact (inStep_iff_unqueued (Database.oneFile.addFile 8) (Database.inStep_of_nil rfl rfl) _).2
    halong _ List.prefix_rfl _ rfl

/-- **A file is queued twice**: it had `5` bytes at first, and has `30` million when it is queued
again, so its upload has the parts `1`, `1` and `2`. -/
theorem parts_inserted_twice :
    Database.oneFile.InStep ∧
    ∃ db', Runs.run uploadStep Database.oneFile
        [UploadAction.put 7 1000 5, .put 7 1000 30000000] = some db' ∧
      db'.transfers = [⟨1, 1000, 7, some 5, .u, none⟩] ∧ db'.partsOf 1 = [1, 1, 2] ∧
      ¬ db'.InStep := by
  have hempty : Database.oneFile.InStep := Database.inStep_of_nil rfl rfl
  have hfirst : (Database.oneFile.putUpload 7 1000 (5 : ℕ)).InStep :=
    (Database.inStep_putUpload_iff (by decide) hempty).2 (by decide)
  refine ⟨hempty, _, rfl, rfl, rfl, ?_⟩
  exact Database.not_inStep_putUpload (by decide) hfirst (by decide)

end AwsS3fs
