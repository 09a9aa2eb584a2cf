/-
**Cutting a file into parts.**

A file is uploaded in parts of 25 megabytes.  `NumberOfMultiparts` (`filecache.c`) says into how
many, the cache process computes the length of a part in `CreateFilePart` (`downloadqueue.c`), and
the grant process computes the offset and the length of a part again in `CreateFileChunk`
(`grant.c`) before it copies the part, 256 kilobytes at a time.  This module is about the numbers
and the copy loop; the requests that the two processes exchange about them are
`AwsS3fs/Grant.lean` and `AwsS3fs/GrantMessages.lean`.

Main definitions:

* `AwsS3fs.numberOfMultiparts`, `AwsS3fs.partSize`, `AwsS3fs.partOffset` — the number of parts,
  and the length and the offset of one;
* `AwsS3fs.pread`, `AwsS3fs.copyLoop` — reading a file, and the copy loop, with what every read
  delivers left open;
* `AwsS3fs.FullReads` — every read delivers all the bytes there are.

Main results:

* `AwsS3fs.numberOfMultiparts_of_le`, `AwsS3fs.numberOfMultiparts_of_gt` — the number of parts of
  a file that can, and of one that cannot be cut into parts of the preferred size;
* `AwsS3fs.partOffset_add_partSize_le` — **every part lies inside the file**;
* `AwsS3fs.copyLoop_flatten` — **the copy loop copies the part**, no byte more and no byte less;
* `AwsS3fs.flatMap_slice` — consecutive slices of a list put together.
-/

import Mathlib.Data.Nat.Init
import Mathlib.Data.Int.Init
import AwsS3fs.Lib.Bytes

set_option relaxedAutoImplicit false
set_option autoImplicit false

namespace AwsS3fs

open CLib

/-! ### The numbers -/

/-- `PREFERRED_CHUNK_SIZE`, in megabytes. -/
def preferredChunkSize : ℤ := 25

/-- The preferred size of a part in bytes, `CHUNK_SIZE` of `NumberOfMultiparts`. -/
def chunkSize : ℤ := preferredChunkSize * (1024 * 1024)

/-- `MAXIMUM_MULTIPARTS`. -/
def maximumMultiparts : ℤ := 10000

/-- `copyChunkSize`, the number of bytes the copy loop reads at a time. -/
def copyChunkSize : ℤ := 262144

/-- `NumberOfMultiparts`. -/
def numberOfMultiparts (filesize : ℤ) : ℤ :=
  if filesize ≤ chunkSize * maximumMultiparts then (filesize + chunkSize - 1).tdiv chunkSize
  else maximumMultiparts

/-- The length of a part, as `CreateFilePart` and `CreateFileChunk` both compute it: the last part
takes the remainder of the division. -/
def partSize (part filesize : ℤ) : ℤ :=
  if part = numberOfMultiparts filesize then filesize.tmod chunkSize else chunkSize

/-- The offset of a part in `CreateFileChunk`. -/
def partOffset (part : ℤ) : ℤ := (part - 1) * chunkSize

theorem chunkSize_eq : chunkSize = 26214400 := rfl

/-- A file that can be cut into parts of the preferred size. -/
theorem numberOfMultiparts_of_le {s : ℕ} (h : s ≤ 26214400 * 10000) :
    numberOfMultiparts s = ((s + 26214399) / 26214400 : ℕ) := by
  have hs : (s : ℤ) ≤ chunkSize * maximumMultiparts := by
    simp only [chunkSize_eq, maximumMultiparts]
    omega
  have hsum : (s : ℤ) + chunkSize - 1 = ((s + 26214399 : ℕ) : ℤ) := by
    simp only [chunkSize_eq]
    omega
  rw [numberOfMultiparts, if_pos hs, hsum, chunkSize_eq,
    Int.tdiv_eq_ediv_of_nonneg (by omega)]
  rfl

/-- A file that is too long for that. -/
theorem numberOfMultiparts_of_gt {s : ℕ} (h : 26214400 * 10000 < s) :
    numberOfMultiparts s = 10000 := by
  rw [numberOfMultiparts, if_neg]
  · rfl
  · simp only [chunkSize_eq, maximumMultiparts]
    omega

/-- All parts but the last have the preferred size. -/
theorem partSize_of_lt {part s : ℤ} (h : part < numberOfMultiparts s) :
    partSize part s = chunkSize := if_neg (by omega)

/-- The last part has the remainder, which is nothing when the division is even. -/
theorem partSize_last (s : ℕ) : partSize (numberOfMultiparts s) s = (s % 26214400 : ℕ) := by
  rw [partSize, if_pos rfl, chunkSize_eq, Int.tmod_eq_emod_of_nonneg (by omega)]
  rfl

/-- A non-empty file has at least one part. -/
theorem numberOfMultiparts_pos {s : ℕ} (h : 0 < s) : 1 ≤ numberOfMultiparts s := by
  rcases Nat.lt_or_ge (26214400 * 10000) s with hs | hs
  · rw [numberOfMultiparts_of_gt hs]; omega
  · rw [numberOfMultiparts_of_le hs]; omega

/-- There are never more than ten thousand parts. -/
theorem numberOfMultiparts_le (s : ℕ) : numberOfMultiparts s ≤ 10000 := by
  rcases Nat.lt_or_ge (26214400 * 10000) s with hs | hs
  · rw [numberOfMultiparts_of_gt hs]
  · rw [numberOfMultiparts_of_le hs]; omega

theorem partSize_nonneg (part : ℤ) (s : ℕ) : 0 ≤ partSize part s := by
  unfold partSize
  split
  · exact Int.tmod_nonneg _ (by omega)
  · rw [chunkSize_eq]; omega

/-- **Every part lies inside the file**, the shortened last one included. -/
theorem partOffset_add_partSize_le {part : ℤ} {s : ℕ} (h₀ : 1 ≤ part)
    (h₁ : part ≤ numberOfMultiparts s) : partOffset part + partSize part s ≤ s := by
  rw [partOffset, chunkSize_eq]
  rcases lt_or_eq_of_le h₁ with hlt | rfl
  · rw [partSize_of_lt hlt, chunkSize_eq]
    rcases Nat.lt_or_ge (26214400 * 10000) s with hs | hs
    · rw [numberOfMultiparts_of_gt hs] at hlt; omega
    · rw [numberOfMultiparts_of_le hs] at hlt; omega
  · rw [partSize_last]
    rcases Nat.lt_or_ge (26214400 * 10000) s with hs | hs
    · rw [numberOfMultiparts_of_gt hs]; omega
    · rw [numberOfMultiparts_of_le hs] at h₀ ⊢; omega

/-! ### The copy loop -/

/-- What a read delivers of the bytes it could have: `reads index n` of `n` available bytes in
round `index` of the loop. -/
abbrev Reads := ℕ → ℕ → ℕ

/-- Every read delivers all the bytes there are. -/
def FullReads (reads : Reads) : Prop := ∀ index n, reads index n = n

/-- `pread` on a regular file.  A negative offset, or a count that is negative as a `ssize_t`, is
refused. -/
def pread (content : Bytes) (deliver : ℕ → ℕ) (count offset : ℤ) : Option Bytes :=
  if offset < 0 ∨ count < 0 then none
  else
    let available := (content.drop offset.toNat).take count.toNat
    some (available.take (deliver available.length))

/-- The number of bytes that round `index` of the copy loop asks for. -/
def requested (partSize : ℤ) (index : ℕ) : ℤ :=
  if copyChunkSize + index * copyChunkSize > partSize then partSize - index * copyChunkSize
  else copyChunkSize

/-- The copy loop of `CreateFileChunk`, from round `index` on with `bytesCopied` bytes copied: the
blocks that are written, in order. -/
def copyLoop (content : Bytes) (reads : Reads) (offset partSize : ℤ) (index : ℕ)
    (bytesCopied : ℤ) : List Bytes :=
  match pread content (reads index) (requested partSize index)
      (offset + index * copyChunkSize) with
  | none => []
  | some chunk =>
      if 0 < chunk.length then
        if bytesCopied + chunk.length < partSize then
          chunk :: copyLoop content reads offset partSize (index + 1) (bytesCopied + chunk.length)
        else [chunk]
      else []
termination_by (partSize - bytesCopied).toNat
decreasing_by omega

/-- Every round that has something to copy reads all that it asks for. -/
def FullRounds (reads : Reads) (partSize : ℤ) : Prop :=
  ∀ index : ℕ, index * copyChunkSize < partSize →
    reads index (requested partSize index).toNat = (requested partSize index).toNat

theorem FullReads.rounds {reads : Reads} (h : FullReads reads) (partSize : ℤ) :
    FullRounds reads partSize := fun index _ => h index _

/-- A round of a part asks for what is left of the part, and for no more than a block. -/
theorem requested_eq (partSize : ℤ) (index : ℕ) :
    requested partSize index = min 262144 (partSize - index * 262144) := by
  rw [requested, copyChunkSize]
  split <;> omega

/-- A read inside the file. -/
theorem pread_inside {content : Bytes} (deliver : ℕ → ℕ) {count offset : ℤ} (h₀ : 0 ≤ offset)
    (h₁ : 0 ≤ count) (hend : offset + count ≤ content.length) :
    pread content deliver count offset
      = some ((content.drop offset.toNat).take (min (deliver count.toNat) count.toNat)) := by
  have hlength : ((content.drop offset.toNat).take count.toNat).length = count.toNat := by
    rw [List.length_take, List.length_drop]
    omega
  rw [pread, if_neg (by omega)]
  simp only [hlength, List.take_take]

theorem pread_full {content : Bytes} {deliver : ℕ → ℕ} {count offset : ℤ} (h₀ : 0 ≤ offset)
    (h₁ : 0 ≤ count) (hend : offset + count ≤ content.length)
    (hd : deliver count.toNat = count.toNat) :
    pread content deliver count offset
      = some ((content.drop offset.toNat).take count.toNat) := by
  rw [pread_inside deliver h₀ h₁ hend, hd, Nat.min_self]

/-- When nothing is left to copy, the read asks for no byte at all. -/
theorem copyLoop_done {content : Bytes} (reads : Reads) {offset size : ℤ} (h₀ : 0 ≤ offset)
    {index : ℕ} (hdone : size = index * 262144) (bytesCopied : ℤ) :
    copyLoop content reads offset size index bytesCopied = [] := by
  have hreq : requested size index = 0 := by
    rw [requested_eq]
    omega
  rw [copyLoop, hreq, copyChunkSize, pread, if_neg (by omega)]
  simp

/-- A round that reads all that it asks for, and the rounds behind it. -/
theorem copyLoop_round {content : Bytes} {reads : Reads} {offset size : ℤ} {index : ℕ}
    (hround : reads index (requested size index).toNat = (requested size index).toNat)
    (h₀ : 0 ≤ offset) (hend : offset + size ≤ content.length) (hlt : index * 262144 < size) :
    copyLoop content reads offset size index (index * 262144) =
      (content.drop (offset + index * 262144).toNat).take (requested size index).toNat ::
        if ((index + 1 : ℕ) : ℤ) * 262144 < size then
          copyLoop content reads offset size (index + 1) ((index + 1 : ℕ) * 262144)
        else [] := by
  have hreq := requested_eq size index
  have hlength : ((content.drop (offset + index * 262144).toNat).take
      (requested size index).toNat).length = (requested size index).toNat := by
    rw [List.length_take, List.length_drop]
    omega
  rw [copyLoop, copyChunkSize, pread_full (by omega) (by omega) (by omega) hround]
  simp only [hlength]
  rw [if_pos (by omega)]
  by_cases hmore : ((index + 1 : ℕ) : ℤ) * 262144 < size
  · have hcopied : (index : ℤ) * 262144 + ((requested size index).toNat : ℤ)
        = ((index + 1 : ℕ) : ℤ) * 262144 := by omega
    rw [if_pos (by omega), if_pos hmore, hcopied]
  · rw [if_neg (by omega), if_neg hmore]

/-- The rounds of the copy loop from the one that starts at the byte `index * copyChunkSize` of
the part on. -/
theorem copyLoop_flatten_from {content : Bytes} {reads : Reads} {offset size : ℤ}
    (hreads : FullRounds reads size) (h₀ : 0 ≤ offset) (hend : offset + size ≤ content.length) :
    ∀ (k index : ℕ), size - index * copyChunkSize ≤ k → index * copyChunkSize ≤ size →
      (copyLoop content reads offset size index (index * copyChunkSize)).flatten
        = (content.drop (offset + index * copyChunkSize).toNat).take
            (size - index * copyChunkSize).toNat := by
  simp only [copyChunkSize]
  intro k
  induction k with
  | zero =>
      intro index hk hle
      rw [copyLoop_done reads h₀ (by omega)]
      simp [show (size - index * 262144).toNat = 0 by omega]
  | succ k ih =>
      intro index hk hle
      rcases hle.eq_or_lt with heq | hlt
      · rw [copyLoop_done reads h₀ heq.symm]
        simp [show (size - index * 262144).toNat = 0 by omega]
      rw [copyLoop_round (hreads index hlt) h₀ hend hlt, List.flatten_cons, requested_eq]
      split
      case isTrue hmore =>
        -- a full block, and the rounds behind it by induction
        have hdrop : (offset + ((index + 1 : ℕ) : ℤ) * 262144).toNat
            = (offset + index * 262144).toNat + 262144 := by omega
        have hsize : (size - index * 262144).toNat
            = 262144 + (size - ((index + 1 : ℕ) : ℤ) * 262144).toNat := by omega
        rw [ih (index + 1) (by omega) (by omega), hdrop, ← List.drop_drop, hsize, List.take_add,
          min_eq_left (by omega)]
        rfl
      case isFalse hdone =>
        -- the last round reads what is left of the part
        rw [List.flatten_nil, List.append_nil, min_eq_right (by omega)]

/-- **The copy loop copies the part**: with full rounds, exactly the bytes from the offset on. -/
theorem copyLoop_flatten_of_rounds {content : Bytes} {reads : Reads} {offset size : ℤ}
    (hreads : FullRounds reads size) (h₀ : 0 ≤ offset) (hsize : 0 ≤ size)
    (hend : offset + size ≤ content.length) :
    (copyLoop content reads offset size 0 0).flatten
      = (content.drop offset.toNat).take size.toNat := by
  have := copyLoop_flatten_from hreads h₀ hend size.toNat 0 (by omega) (by simpa using hsize)
  simpa using this

theorem copyLoop_flatten {content : Bytes} {reads : Reads} (hreads : FullReads reads)
    {offset size : ℤ} (h₀ : 0 ≤ offset) (hsize : 0 ≤ size)
    (hend : offset + size ≤ content.length) :
    (copyLoop content reads offset size 0 0).flatten
      = (content.drop offset.toNat).take size.toNat :=
  copyLoop_flatten_of_rounds (hreads.rounds size) h₀ hsize hend

/-! ### Putting the parts together -/

/-- Consecutive slices of a list put together. -/
theorem flatMap_slice {α : Type*} (l : List α) (c n : ℕ) :
    (List.range n).flatMap (fun i => (l.drop (i * c)).take c) = l.take (n * c) := by
  induction n with
  | zero => simp
  | succ n ih =>
      rw [List.range_succ, List.flatMap_append, ih, List.flatMap_singleton, Nat.succ_mul,
        List.take_add]

end AwsS3fs
