/-
**The parts of an upload, put together.**

The cache process announces the length of a part to S3 and asks the grant process for the bytes.
Here the two are put side by side.  They always agree on the length.  But the parts make up the
file only if the file can be cut into parts of the preferred size and its last part is not a whole
one: the remainder of the division by the size of a part is `0` for a file that is a multiple of
it, whose last part is therefore empty, and the last of ten thousand parts is no longer than that
remainder, however much of the file is left.

Main definitions:

* `AwsS3fs.Grant.written` — what a sequence of system calls writes to a file;
* `AwsS3fs.Grant.chunkParameters` — the parameters `part:file:dest`.

Main results:

* `AwsS3fs.Grant.announced_eq_written` — **the announced length of a part is the number of bytes
  written for it**;
* `AwsS3fs.Grant.parts_eq_content_iff` — **exactly when the parts make up the file**;
* `AwsS3fs.Grant.whole_chunk_lost` — a file of exactly one part is lost.
-/

import AwsS3fs.GrantMessages

set_option relaxedAutoImplicit false
set_option autoImplicit false

namespace AwsS3fs.Grant

open CLib

/-- What a sequence of system calls writes to a file. -/
def written (path : Bytes) : List Syscall → Bytes
  | [] => []
  | .write dest data :: calls =>
      if dest = path then data ++ written path calls else written path calls
  | _ :: calls => written path calls

/-- The parameters `part:file:dest` of a request for a part. -/
def chunkParameters (part : ℤ) (path dest : Bytes) : Bytes :=
  formatInt part ++ colon :: (path ++ colon :: dest)

theorem written_map_write (path : Bytes) (blocks : List Bytes) :
    written path (blocks.map (.write path)) = blocks.flatten := by
  induction blocks with
  | nil => rfl
  | cons b blocks ih => simp [written, ih]

section

variable {fs : FileSystem} {reads : Reads} {src dest content old : Bytes}

/-- What copying a part writes is what the copy loop copies. -/
theorem written_copyChunk (hsrc : fs src = some (.file content))
    (hdest : fs dest = some (.file old)) (part : ℤ) :
    written dest (copyChunk fs reads part src dest)
      = (copyLoop content reads (partOffset part) (partSize part content.length) 0 0).flatten := by
  simp only [copyChunk, hsrc, hdest, Node.size, List.cons_append, List.nil_append, written,
    written_map_write]

/-- With full reads, that is the slice of the file from the offset of the part on. -/
theorem written_part (hsrc : fs src = some (.file content)) (hdest : fs dest = some (.file old))
    (hreads : FullReads reads) {part : ℤ} (h₀ : 1 ≤ part)
    (h₁ : part ≤ numberOfMultiparts content.length) :
    written dest (copyChunk fs reads part src dest)
      = (content.drop (partOffset part).toNat).take (partSize part content.length).toNat := by
  rw [written_copyChunk hsrc hdest]
  refine copyLoop_flatten hreads ?_ (partSize_nonneg part _) (partOffset_add_partSize_le h₀ h₁)
  simp only [partOffset, chunkSize_eq]
  omega

/-- The number of bytes written for a part. -/
theorem length_written_part (hsrc : fs src = some (.file content))
    (hdest : fs dest = some (.file old)) (hreads : FullReads reads) {part : ℤ} (h₀ : 1 ≤ part)
    (h₁ : part ≤ numberOfMultiparts content.length) :
    ((written dest (copyChunk fs reads part src dest)).length : ℤ)
      = partSize part content.length := by
  have hend := partOffset_add_partSize_le h₀ h₁
  have hsize := partSize_nonneg part content.length
  have hoff : 0 ≤ partOffset part := by simp only [partOffset, chunkSize_eq]; omega
  rw [written_part hsrc hdest hreads h₀ h₁, List.length_take, List.length_drop]
  omega

end

/-! ### The length of a part -/

/-- **The announced length of a part is the number of bytes written for it**: the length that
`CreateFilePart` returns for a file of the size of the source, and the bytes that the grant process
writes when it receives the message of the same call. -/
theorem announced_eq_written (cacheDir : Bytes) (childPid : ℤ) (loop : Loop) (env : Surroundings)
    {ucred : Credentials} (hpid : ucred.pid = childPid) {path content old : Bytes}
    (hpath : PathNotation path) (dest : Name)
    (hsrc : env.fs (cacheFiles cacheDir ++ path) = some (.file content))
    (hdest : env.fs (cacheInprogress cacheDir ++ dest.chars) = some (.file old))
    (hreads : FullReads env.reads) {part : ℕ} (h₀ : 1 ≤ part)
    (h₁ : part ≤ numberOfMultiparts content.length) :
    (createFilePart path part content.length dest.chars).1
      = (written (cacheInprogress cacheDir ++ dest.chars)
          (round cacheDir childPid loop
            ((createFilePart path part content.length dest.chars).2.datagram ucred)
            env).calls).length := by
  have hlen : path.length ≤ 13 := by
    cases hpath with
    | name n => simp
    | nested d n => simp
  have hmax := numberOfMultiparts_le content.length
  rw [calls_chunkMessage cacheDir childPid loop env hpid hpath hlen h₀ (by omega),
    length_written_part hsrc hdest hreads (by omega) h₁]
  rfl

/-- A file system with one file in the shared cache, and an empty one in the directory of the
transfers in progress. -/
def oneFile (content : Bytes) : FileSystem := fun path =>
  if path = ascii "/cache/files/aB3dE5" then some (.file content)
  else if path = ascii "/cache/files/unfinished/012345" then some (.file [])
  else none

theorem oneFile_src (content : Bytes) :
    oneFile content (cacheFiles (ascii "/cache") ++ Name.sample.chars) = some (.file content) :=
  if_pos (by decide)

theorem oneFile_dest (content : Bytes) :
    oneFile content (cacheInprogress (ascii "/cache") ++ Name.digits.chars) = some (.file []) := by
  rw [oneFile, if_neg (by decide), if_pos (by decide)]

/-- A file of two parts, the second of them of two bytes. -/
def twoParts : Bytes := List.replicate 26214402 7

theorem length_twoParts : twoParts.length = 26214402 := List.length_replicate

theorem numberOfMultiparts_twoParts : numberOfMultiparts twoParts.length = 2 := by
  rw [length_twoParts]
  decide

theorem announced_eq_written_two :
    (createFilePart Name.sample.chars 2 twoParts.length Name.digits.chars).1
      = (written (ascii "/cache/files/unfinished/012345")
          (round (ascii "/cache") 42 Loop.idle
            ((createFilePart Name.sample.chars 2 twoParts.length Name.digits.chars).2.datagram
              ⟨42, 0, 0⟩)
            { Surroundings.empty with fs := oneFile twoParts }).calls).length :=
  announced_eq_written (ascii "/cache") 42 Loop.idle
    { Surroundings.empty with fs := oneFile twoParts }
    (show Credentials.pid ⟨42, 0, 0⟩ = 42 from rfl) (.name Name.sample) Name.digits
    (oneFile_src twoParts) (oneFile_dest twoParts) (fun _ _ => rfl) (by decide)
    numberOfMultiparts_twoParts.ge

/-! ### The whole file -/

/-- What the grant process writes on the request `part:file:dest`. -/
theorem createFileChunk_parameters (cacheDir : Bytes) (fs : FileSystem) (reads : Reads)
    {path : Bytes} (hpath : PathNotation path) (dest : Name) {part : ℕ} (h₀ : 1 ≤ part)
    (h₁ : part ≤ 10000) (rest : Bytes) (buf : CharArray) :
    createFileChunk cacheDir fs reads (chunkParameters part path dest.chars ++ 0 :: rest) buf
      = some (copyChunk fs reads part (cacheFiles cacheDir ++ path)
          (cacheInprogress cacheDir ++ dest.chars)) := by
  have h := ChunkNotation.intro (number_formatInt (show part ≤ 99999 by omega)) hpath dest
    (by rw [decimalValue_formatInt]; exact h₀) (by rw [decimalValue_formatInt]; exact h₁)
  rw [decimalValue_formatInt] at h
  exact (h.text.request rest).createFileChunk_eq cacheDir fs reads buf

section

variable (cacheDir : Bytes) {fs : FileSystem} {reads : Reads} {path content : Bytes}
  (hpath : PathNotation path) (dest : ℕ → Name) (rest : ℕ → Bytes) (buf : ℕ → CharArray)

/-- The bytes written for the parts `1, …, NumberOfMultiparts( s )`, one after the other; the
destination, the bytes behind the request and the uninitialised array may differ from part to
part. -/
def parts (fs : FileSystem) (reads : Reads) (path content : Bytes) : Bytes :=
  (List.range (numberOfMultiparts content.length).toNat).flatMap fun i =>
    written (cacheInprogress cacheDir ++ (dest (i + 1)).chars)
      ((createFileChunk cacheDir fs reads
        (chunkParameters (i + 1 : ℕ) path (dest (i + 1)).chars ++ 0 :: rest (i + 1))
        (buf (i + 1))).getD [])

include hpath in
/-- The parts together are the file up to the end of its last part. -/
theorem parts_eq_take (hsrc : fs (cacheFiles cacheDir ++ path) = some (.file content))
    (hdest : ∀ i, ∃ old, fs (cacheInprogress cacheDir ++ (dest i).chars) = some (.file old))
    (hreads : FullReads reads) (hpos : 0 < content.length) :
    parts cacheDir dest rest buf fs reads path content
      = content.take (((numberOfMultiparts content.length).toNat - 1) * 26214400
          + content.length % 26214400) := by
  have hmin := numberOfMultiparts_pos hpos
  have hmax := numberOfMultiparts_le content.length
  obtain ⟨n, hn⟩ : ∃ n : ℕ, numberOfMultiparts content.length = n + 1 :=
    ⟨(numberOfMultiparts content.length).toNat - 1, by omega⟩
  have hpart : ∀ i ≤ n, written (cacheInprogress cacheDir ++ (dest (i + 1)).chars)
      ((createFileChunk cacheDir fs reads
        (chunkParameters (i + 1 : ℕ) path (dest (i + 1)).chars ++ 0 :: rest (i + 1))
        (buf (i + 1))).getD [])
      = (content.drop (i * 26214400)).take
          (partSize (i + 1 : ℕ) content.length).toNat := by
    intro i hi
    obtain ⟨old, hold⟩ := hdest (i + 1)
    rw [createFileChunk_parameters cacheDir fs reads hpath _ (by omega) (by omega),
      Option.getD_some, written_part hsrc hold hreads (by omega) (by omega)]
    congr 2
    simp only [partOffset, chunkSize_eq]
    omega
  -- all parts are whole but the last one, which is the remainder
  have hfull : ∀ i < n, (partSize (i + 1 : ℕ) content.length).toNat = 26214400 := by
    intro i hi
    rw [partSize_of_lt (by omega)]
    rfl
  have hlast : (partSize (n + 1 : ℕ) content.length).toNat = content.length % 26214400 := by
    rw [show ((n + 1 : ℕ) : ℤ) = numberOfMultiparts content.length by omega, partSize_last]
    rfl
  rw [parts, hn, show ((n : ℤ) + 1).toNat = n + 1 by omega, List.range_succ, List.flatMap_append,
    List.flatMap_singleton, hpart n le_rfl, hlast, Nat.add_sub_cancel, List.take_add,
    ← flatMap_slice]
  congr 1
  refine List.flatMap_congr fun i hi => ?_
  rw [hpart i (by have := List.mem_range.1 hi; omega), hfull i (List.mem_range.1 hi)]

end

/-- **The parts make up the file exactly if** its size is no multiple of the size of a part and does
not exceed that of ten thousand parts. -/
theorem parts_eq_content_iff (cacheDir : Bytes) {fs : FileSystem} {reads : Reads}
    {path content : Bytes} (hpath : PathNotation path) (dest : ℕ → Name) (rest : ℕ → Bytes)
    (buf : ℕ → CharArray)
    (hsrc : fs (cacheFiles cacheDir ++ path) = some (.file content))
    (hdest : ∀ i, ∃ old, fs (cacheInprogress cacheDir ++ (dest i).chars) = some (.file old))
    (hreads : FullReads reads) (hpos : 0 < content.length) :
    parts cacheDir dest rest buf fs reads path content = content ↔
      ¬ 26214400 ∣ content.length ∧ content.length ≤ 26214400 * 10000 := by
  have hself : ∀ n, content.take n = content ↔ content.length ≤ n := fun n =>
    ⟨fun h => by simpa using congrArg List.length h, List.take_of_length_le⟩
  rw [parts_eq_take cacheDir hpath dest rest buf hsrc hdest hreads hpos, hself]
  rcases Nat.lt_or_ge (26214400 * 10000) content.length with h | h
  · rw [numberOfMultiparts_of_gt h]
    omega
  · rw [numberOfMultiparts_of_le h, Int.toNat_natCast]
    omega

theorem parts_eq_content_two :
    parts (ascii "/cache") (fun _ => Name.digits) (fun _ => []) (fun _ _ => 0)
      (oneFile twoParts) (fun _ n => n) Name.sample.chars twoParts = twoParts :=
  (parts_eq_content_iff (ascii "/cache") (.name Name.sample) (fun _ => Name.digits) (fun _ => [])
    (fun _ _ => 0) (oneFile_src _) (fun _ => ⟨_, oneFile_dest _⟩) (fun _ _ => rfl)
    (by rw [length_twoParts]; decide)).2 (by rw [length_twoParts]; decide)

/-- **A file of exactly one part is lost**: its only part has the length of the remainder, `0`. -/
theorem whole_chunk_lost :
    parts (ascii "/cache") (fun _ => Name.digits) (fun _ => []) (fun _ _ => 0)
        (oneFile (List.replicate 26214400 7)) (fun _ n => n) Name.sample.chars
        (List.replicate 26214400 7)
      ≠ List.replicate 26214400 7 := by
  rw [parts_eq_take (ascii "/cache") (.name Name.sample) (fun _ => Name.digits) (fun _ => [])
    (fun _ _ => 0) (oneFile_src _) (fun _ => ⟨_, oneFile_dest _⟩) (fun _ _ => rfl)
    (by rw [List.length_replicate]; omega)]
  intro h
  have hlen := congrArg List.length h
  rw [List.length_take, List.length_replicate, numberOfMultiparts_of_le (by omega)] at hlen
  omega

end AwsS3fs.Grant
