/-
**Short reads of the copy loop.**

A call of `pread` may return fewer bytes than it was asked for.  The copy loop of `CreateFileChunk`
(`grant.c`) counts the bytes that it has copied, but computes the offset of the next read from the
number of the round, so that after a short read a gap stays in what it copies.  The loop ends in any
case: with every round there are more bytes copied, or there is no byte read.

Main definitions:

* `AwsS3fs.ShortReads` — reads of at least one byte;
* `AwsS3fs.Grant.PartCopied` — the destination holds the part.

Main results:

* `AwsS3fs.length_copyLoop_le` — the loop never copies more than it asks for;
* `AwsS3fs.fullRounds_of_length` — if it copies all of the part, every round was full;
* `AwsS3fs.Grant.partCopied_iff_fullRounds` — **exactly when the part is copied**.
-/

import AwsS3fs.MultipartUpload

set_option relaxedAutoImplicit false
set_option autoImplicit false

namespace AwsS3fs

open CLib

/-! ### The length of a copy -/

/-- A read delivers at least one byte, and no more than there are. -/
def ShortReads (reads : Reads) : Prop :=
  ∀ index n, 0 < n → 1 ≤ reads index n ∧ reads index n ≤ n

theorem length_le_of_pread {content chunk : Bytes} {deliver : ℕ → ℕ} {count offset : ℤ}
    (h : pread content deliver count offset = some chunk) : chunk.length ≤ count.toNat := by
  rw [pread] at h
  split at h
  · cases h
  · obtain rfl := Option.some.inj h
    rw [List.length_take, List.length_take]
    omega

section Copy

variable {content : Bytes} {reads : Reads} {offset size : ℤ}

/-- **The loop never copies more than it asks for**: from a round on, at most what is behind its
block. -/
theorem length_copyLoop_le (index : ℕ) (bytesCopied : ℤ) :
    (copyLoop content reads offset size index bytesCopied).flatten.length ≤
      (size - index * 262144).toNat := by
  fun_induction copyLoop content reads offset size index bytesCopied with
  | case1 => exact Nat.zero_le _
  | case2 index bytesCopied chunk hread hpos hmore ih =>
      have hchunk := length_le_of_pread hread
      rw [requested_eq] at hchunk
      rw [List.flatten_cons, List.length_append]
      omega
  | case3 index bytesCopied chunk hread hpos hmore =>
      have hchunk := length_le_of_pread hread
      rw [requested_eq] at hchunk
      rw [List.flatten_singleton]
      omega
  | case4 => exact Nat.zero_le _

/-- A round that leaves nothing out is full, and so is what follows it. -/
theorem full_round_of_length (hshort : ShortReads reads) (h₀ : 0 ≤ offset)
    (hend : offset + size ≤ content.length) {index : ℕ} (hlt : index * 262144 < size)
    {bytesCopied : ℤ}
    (hlength : (copyLoop content reads offset size index bytesCopied).flatten.length =
      (size - index * 262144).toNat) :
    reads index (requested size index).toNat = (requested size index).toNat ∧
      ((index + 1 : ℕ) * 262144 < size → ∃ bytesCopied',
        (copyLoop content reads offset size (index + 1) bytesCopied').flatten.length =
          (size - (index + 1 : ℕ) * 262144).toNat) := by
  have hreq := requested_eq size index
  obtain ⟨hone, hle⟩ := hshort index (requested size index).toNat (by omega)
  have hread : pread content (reads index) (requested size index) (offset + index * 262144) =
      some ((content.drop (offset + index * 262144).toNat).take
        (reads index (requested size index).toNat)) := by
    rw [pread_inside (reads index) (by omega) (by omega) (by omega), Nat.min_eq_left hle]
  have hchunk : ((content.drop (offset + index * 262144).toNat).take
      (reads index (requested size index).toNat)).length =
        reads index (requested size index).toNat := by
    rw [List.length_take, List.length_drop]
    omega
  rw [copyLoop, copyChunkSize, hread] at hlength
  simp only [hchunk, if_pos (Nat.lt_of_lt_of_le Nat.one_pos hone)] at hlength
  split at hlength
  · -- what the other rounds copy is not enough for a part of this one
    have hrest : (copyLoop content reads offset size (index + 1)
        (bytesCopied + reads index (requested size index).toNat)).flatten.length ≤
          (size - (index + 1 : ℕ) * 262144).toNat := length_copyLoop_le _ _
    rw [List.flatten_cons, List.length_append, hchunk] at hlength
    exact ⟨by omega, fun hnext =>
      ⟨bytesCopied + reads index (requested size index).toNat, by omega⟩⟩
  · rw [List.flatten_singleton, hchunk] at hlength
    exact ⟨by omega, fun hnext => by omega⟩

/-- **If the loop copies all of the part, every round was full.** -/
theorem fullRounds_of_length (hshort : ShortReads reads) (h₀ : 0 ≤ offset)
    (hend : offset + size ≤ content.length)
    (hlength : (copyLoop content reads offset size 0 0).flatten.length = size.toNat) :
    FullRounds reads size := by
  -- every round that has something to copy leaves nothing out, by induction on its number
  have hall : ∀ index : ℕ, index * 262144 < size → ∃ bytesCopied,
      (copyLoop content reads offset size index bytesCopied).flatten.length =
        (size - index * 262144).toNat := by
    intro index
    induction index with
    | zero => exact fun _ => ⟨0, by simpa using hlength⟩
    | succ index ih =>
        intro hlt
        obtain ⟨bytesCopied, hround⟩ := ih (by omega)
        exact (full_round_of_length hshort h₀ hend (by omega) hround).2 hlt
  intro index hlt
  obtain ⟨bytesCopied, hround⟩ := hall index hlt
  exact (full_round_of_length hshort h₀ hend hlt hround).1

end Copy

namespace Grant

/-! ### The destination -/

/-- **The destination holds the part**, its bytes in order and nothing else. -/
def PartCopied (fs : FileSystem) (reads : Reads) (part : ℤ) (src dest content : Bytes) : Prop :=
  written dest (copyChunk fs reads part src dest) =
    (content.drop (partOffset part).toNat).take (partSize part content.length).toNat

section

variable {fs : FileSystem} {reads : Reads} {src dest content old : Bytes} {part : ℤ}

theorem partOffset_nonneg (h₀ : 1 ≤ part) : 0 ≤ partOffset part := by
  rw [partOffset, chunkSize_eq]
  omega

/-- A part that is copied was read in full rounds. -/
theorem PartCopied.fullRounds (hcopied : PartCopied fs reads part src dest content)
    (hsrc : fs src = some (.file content)) (hdest : fs dest = some (.file old))
    (hshort : ShortReads reads) (h₀ : 1 ≤ part) (h₁ : part ≤ numberOfMultiparts content.length) :
    FullRounds reads (partSize part content.length) := by
  have hoffset := partOffset_nonneg h₀
  have hend := partOffset_add_partSize_le h₀ h₁
  rw [PartCopied, written_copyChunk hsrc hdest] at hcopied
  refine fullRounds_of_length hshort hoffset hend ?_
  rw [hcopied, List.length_take, List.length_drop]
  omega

/-- **Exactly when the part is copied**: when every round that has something to copy reads all that
it asks for. -/
theorem partCopied_iff_fullRounds (hsrc : fs src = some (.file content))
    (hdest : fs dest = some (.file old)) (hshort : ShortReads reads) (h₀ : 1 ≤ part)
    (h₁ : part ≤ numberOfMultiparts content.length) (hpos : 0 < partSize part content.length) :
    PartCopied fs reads part src dest content ↔
      FullRounds reads (partSize part content.length) := by
  refine ⟨fun hcopied => hcopied.fullRounds hsrc hdest hshort h₀ h₁, fun hfull => ?_⟩
  rw [PartCopied, written_copyChunk hsrc hdest]
  exact copyLoop_flatten_of_rounds hfull (partOffset_nonneg h₀) hpos.le
    (partOffset_add_partSize_le h₀ h₁)

end

/-- A file of two bytes and an empty one. -/
def twoFiles : FileSystem := fun path =>
  if path = ascii "src" then some (.file (ascii "ab"))
  else if path = ascii "dest" then some (.file [])
  else none

theorem twoFiles_src : twoFiles (ascii "src") = some (.file (ascii "ab")) := if_pos rfl

theorem twoFiles_dest : twoFiles (ascii "dest") = some (.file []) := by
  rw [twoFiles, if_neg (by decide), if_pos rfl]

/-- Reads of two bytes at most. -/
theorem partCopied_twoFiles :
    PartCopied twoFiles (fun _ n => min 2 n) 1 (ascii "src") (ascii "dest") (ascii "ab") := by
  refine (partCopied_iff_fullRounds twoFiles_src twoFiles_dest
    (fun _ n hn => ⟨by omega, Nat.min_le_right _ _⟩) (by decide) (by decide) (by decide)).2 ?_
  -- the part is over after the first round
  intro index hindex
  have hsize : partSize 1 (ascii "ab").length = 2 := by decide
  obtain rfl : index = 0 := by
    rw [hsize, copyChunkSize] at hindex
    omega
  decide

/-- **A byte is lost** if every read delivers one. -/
theorem not_partCopied_twoFiles :
    ¬ ∀ (fs : FileSystem) (reads : Reads) (src dest content old : Bytes) (part : ℤ),
      fs src = some (.file content) → fs dest = some (.file old) → ShortReads reads → 1 ≤ part →
      part ≤ numberOfMultiparts content.length → 0 < partSize part content.length →
      PartCopied fs reads part src dest content := by
  intro h
  have hshort : ShortReads fun _ _ => 1 := fun _ n hn => ⟨Nat.le_refl 1, hn⟩
  have hcopied := h twoFiles (fun _ _ => 1) (ascii "src") (ascii "dest") (ascii "ab") [] 1
    twoFiles_src twoFiles_dest hshort (by decide) (by decide) (by decide)
  have hfull := hcopied.fullRounds twoFiles_src twoFiles_dest hshort (by decide) (by decide) 0
    (by decide)
  revert hfull
  decide

end Grant

end AwsS3fs
