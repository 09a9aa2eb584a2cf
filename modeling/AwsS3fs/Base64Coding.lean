/-
**Base 64 through a build buffer.**

`EncodeBase64` and `DecodeBase64` collect their output in a build buffer of 2048 characters.  When
the next group might not fit, the buffer is moved to a result that grows by one allocation, and
when the input has ended the last, incomplete group is put into the buffer and the buffer is moved
once more.  Both functions make that last move inside the test for an incomplete group: whatever a
complete group has left in the buffer never reaches the result.

An encoded string is therefore right when its length is no multiple of three, or when the last
group happened to fill the buffer.  A decoded string has the right length, but the octets of the
last, unfinished block are those that the allocated memory held before.

Main definitions:

* `AwsS3fs.encodeBase64`, `AwsS3fs.decodeBase64` — the two functions;
* `AwsS3fs.EncodeState.output`, `AwsS3fs.DecodeState.Holds` — their states as a buffered output.

Main results:

* `AwsS3fs.encodeBase64_eq_encode_iff` — **when an encoded string is right**;
* `AwsS3fs.decodeBase64_encode_iff` — **when decoding undoes the encoding**.
-/

import AwsS3fs.Lib.Base64
import AwsS3fs.Lib.Blocks
import Mathlib.Data.List.GetD

set_option relaxedAutoImplicit false
set_option autoImplicit false

open CLib Blocks

namespace AwsS3fs

/-- `sizeof( buildBuffer )`. -/
def sizeofBuildBuffer : ℕ := 2048

/-! ### EncodeBase64 -/

/-- `toBase64`. -/
def toBase64 : Bytes :=
  ascii ("ABCDEFGHIJKLMNOPQRSTUVWXYZ" ++ "abcdefghijklmnopqrstuvwxyz" ++ "0123456789" ++ "+/")

/-- Expand 3 characters into 4. -/
def expand (a b c : UInt8) : List UInt8 :=
  [(a &&& 0xfc) >>> 2,
    ((a &&& 0x03) <<< 4) ||| ((b &&& 0xf0) >>> 4),
    ((b &&& 0x0f) <<< 2) ||| ((c &&& 0xc0) >>> 6),
    c &&& 0x3f]

/-- Change to base 64 character representation. -/
def toChars (array4 : List UInt8) : Bytes := array4.map fun v => toBase64.getD v.toNat 0

/-- The variables of `EncodeBase64`: the filled parts of its arrays, and the string in `result`. -/
structure EncodeState where
  /-- `array3`, of `a3Idx` characters. -/
  array3 : Bytes
  /-- `buildBuffer`, of `buildIdx` characters. -/
  buildBuffer : Bytes
  /-- `result`. -/
  result : Bytes

/-- One character of the source. -/
def encodeStep (st : EncodeState) (ch : UInt8) : EncodeState :=
  match st.array3 with
  | [a, b] =>
      let buildBuffer := st.buildBuffer ++ toChars (expand a b ch)
      if sizeofBuildBuffer - 6 ≤ buildBuffer.length then ⟨[], [], st.result ++ buildBuffer⟩
      else ⟨[], buildBuffer, st.result⟩
  | array3 => { st with array3 := array3 ++ [ch] }

/-- `EncodeBase64`. -/
def encodeBase64 (source : Bytes) : Bytes :=
  let st := source.foldl encodeStep ⟨[], [], []⟩
  if 0 < st.array3.length then
    -- clear the last one or two characters of the array, and pad the digits
    let array4 := expand (st.array3.getD 0 0) (st.array3.getD 1 0) (st.array3.getD 2 0)
    let digits := toChars (array4.take (st.array3.length + 1))
    st.result ++ (st.buildBuffer ++ digits ++ List.replicate (3 - st.array3.length) 61)
  else st.result

theorem toNat_expand (a b c : UInt8) :
    (expand a b c).map UInt8.toNat = Base64.sextets a b c := by
  have ha := a.toNat_lt
  have hb := b.toNat_lt
  have hc := c.toNat_lt
  have h₁ : ((a &&& 0xfc) >>> 2).toNat = a.toNat / 4 % 64 :=
    toNat_and_shiftRight (j := 6) (by decide) (by decide) a
  have h₂ : ((b &&& 0xf0) >>> 4).toNat = b.toNat / 16 % 16 :=
    toNat_and_shiftRight (j := 4) (by decide) (by decide) b
  have h₃ : ((c &&& 0xc0) >>> 6).toNat = c.toNat / 64 % 4 :=
    toNat_and_shiftRight (j := 2) (by decide) (by decide) c
  have h₄ : (a &&& 0x03).toNat = a.toNat % 4 := toNat_and_mask (j := 2) (by decide) a
  have h₅ : (b &&& 0x0f).toNat = b.toNat % 16 := toNat_and_mask (j := 4) (by decide) b
  have h₆ : (c &&& 0x3f).toNat = c.toNat % 64 := toNat_and_mask (j := 6) (by decide) c
  have h₇ := toNat_shiftLeft_or (x := a &&& 0x03) (y := (b &&& 0xf0) >>> 4) (k := 4) (by decide)
    (by rw [h₄]; simp; omega) (by rw [h₂]; simp; omega)
  have h₈ := toNat_shiftLeft_or (x := b &&& 0x0f) (y := (c &&& 0xc0) >>> 6) (k := 2) (by decide)
    (by rw [h₅]; simp; omega) (by rw [h₃]; simp; omega)
  rw [Base64.sextets_eq]
  simp only [expand, List.map_cons, List.map_nil, h₁, h₇, h₈, h₂, h₃, h₄, h₅, h₆,
    UInt8.reduceToNat, List.cons.injEq, and_true]
  omega

/-- Four characters for three, as the notation has them. -/
theorem toChars_expand (a b c : UInt8) : toChars (expand a b c) = Base64.encodeGroup a b c := by
  have hdigit : ∀ v ∈ expand a b c, toBase64.getD v.toNat 0 = Base64.digit v.toNat := by
    intro v hv
    have hmem : v.toNat ∈ Base64.sextets a b c :=
      toNat_expand a b c ▸ List.mem_map_of_mem hv
    have hlt : v.toNat < toBase64.length := by
      have ha := a.toNat_lt
      have hb := b.toNat_lt
      have hc := c.toNat_lt
      have hlen : toBase64.length = 64 := rfl
      rw [Base64.sextets_eq] at hmem
      simp only [List.mem_cons, List.not_mem_nil, or_false] at hmem
      omega
    have htable : toBase64 = Base64.alphabet := rfl
    rw [Base64.digit, ← htable, List.getD_eq_getElem _ _ hlt, List.getD_eq_getElem _ _ hlt]
  rw [toChars, List.map_congr_left hdigit, Base64.encodeGroup, ← toNat_expand, List.map_map]
  rfl

/-- The output of the encoder. -/
def EncodeState.output (st : EncodeState) : Buffer UInt8 := ⟨st.result, st.buildBuffer⟩

/-- The state between two groups. -/
def EncodeState.between (b : Buffer UInt8) : EncodeState := ⟨[], b.held, b.flushed⟩

/-- **Three characters** of the source. -/
theorem foldl_encodeStep_octets (b : Buffer UInt8) (g : UInt8 × UInt8 × UInt8) :
    (Base64.octets g).foldl encodeStep (EncodeState.between b)
      = EncodeState.between (Buffer.push (sizeofBuildBuffer - 6) b (Base64.digits g)) := by
  obtain ⟨x, y, z⟩ := g
  simp only [Base64.octets, Base64.digits, EncodeState.between, List.foldl_cons, List.foldl_nil,
    encodeStep, List.nil_append, List.cons_append, toChars_expand, Buffer.push, List.length_append]
  split <;> rename_i hfull <;> simp only [hfull, if_true, if_false]

/-- All complete groups of a string. -/
theorem foldl_encodeStep_groups (b : Buffer UInt8) (gs : List (UInt8 × UInt8 × UInt8)) :
    ((gs.map Base64.octets).flatten).foldl encodeStep (EncodeState.between b)
      = EncodeState.between ((gs.map Base64.digits).foldl
          (Buffer.push (sizeofBuildBuffer - 6)) b) := by
  induction gs generalizing b with
  | nil => rfl
  | cons g gs ih =>
      rw [List.map_cons, List.flatten_cons, List.foldl_append, foldl_encodeStep_octets, ih,
        List.map_cons, List.foldl_cons]

/-- The output after the complete groups of a string. -/
def encodedGroups (source : Bytes) : Buffer UInt8 :=
  ((Base64.groups source).map Base64.digits).foldl (Buffer.push (sizeofBuildBuffer - 6))
    Buffer.empty

theorem content_encodedGroups (source : Bytes) :
    (encodedGroups source).content = ((Base64.groups source).map Base64.digits).flatten := by
  rw [encodedGroups, Buffer.content_foldl_push, Buffer.content_empty, List.nil_append]

/-- 511 groups fill the buffer. -/
theorem length_held_encodedGroups (source : Bytes) :
    (encodedGroups source).held.length = 4 * ((Base64.groups source).length % 511) := by
  have hgroups : ∀ block ∈ (Base64.groups source).map Base64.digits, block.length = 4 := by
    intro block hblock
    obtain ⟨g, -, rfl⟩ := List.mem_map.1 hblock
    rfl
  rw [encodedGroups, Buffer.length_held_foldl_push (m := 511) (by omega) (by decide)
    (fun j hj => by rw [sizeofBuildBuffer]; omega) hgroups, List.length_map]

/-- **What the encoder returns**: the end of the buffer only comes with an incomplete group. -/
theorem encodeBase64_eq (source : Bytes) :
    encodeBase64 source
      = if Base64.rest source = [] then (encodedGroups source).flushed
        else (encodedGroups source).content ++ Base64.encode (Base64.rest source) := by
  have hloop : source.foldl encodeStep ⟨[], [], []⟩
      = (Base64.rest source).foldl encodeStep (EncodeState.between (encodedGroups source)) := by
    conv_lhs => rw [← Base64.flatten_groups source]
    rw [List.foldl_append]
    exact congrArg (fun st => (Base64.rest source).foldl encodeStep st)
      (foldl_encodeStep_groups Buffer.empty (Base64.groups source))
  simp only [encodeBase64, hloop]
  obtain hrest | ⟨a, hrest⟩ | ⟨a, b, hrest⟩ := Base64.rest_cases source
  · simp [hrest, EncodeState.between]
  · have hchars : toChars ((expand a 0 0).take 2) = (Base64.encodeGroup a 0 0).take 2 := by
      rw [← toChars_expand, toChars, toChars, List.map_take]
    simp [hrest, EncodeState.between, encodeStep, hchars, Base64.encode, Base64.pad,
      Buffer.content]
  · have hchars : toChars ((expand a b 0).take 3) = (Base64.encodeGroup a b 0).take 3 := by
      rw [← toChars_expand, toChars, toChars, List.map_take]
    simp [hrest, EncodeState.between, encodeStep, hchars, Base64.encode, Base64.pad,
      Buffer.content]

/-- **When an encoded string is right**: there is an incomplete group, or the last group filled
the buffer. -/
theorem encodeBase64_eq_encode_iff (source : Bytes) :
    encodeBase64 source = Base64.encode source ↔
      source.length % 3 ≠ 0 ∨ source.length % 1533 = 0 := by
  have hlength := Base64.length_eq source
  rw [encodeBase64_eq, Base64.encode_eq source, ← content_encodedGroups]
  by_cases hrest : Base64.rest source = []
  · have hmod := (Base64.rest_eq_nil_iff source).1 hrest
    rw [if_pos hrest, hrest, Base64.encode, List.append_nil, Buffer.content,
      List.self_eq_append_right, ← List.length_eq_zero_iff, length_held_encodedGroups]
    rw [hrest, List.length_nil] at hlength
    omega
  · have hmod := mt (Base64.rest_eq_nil_iff source).2 hrest
    rw [if_neg hrest]
    exact ⟨fun _ => .inl hmod, fun _ => rfl⟩

/-- Three characters are encoded to nothing at all. -/
theorem not_encodeBase64_eq_encode :
    ¬ ∀ source : Bytes, encodeBase64 source = Base64.encode source := by
  intro h
  exact absurd (h (ascii "abc")) (by decide)

/-! ### DecodeBase64 -/

/-- `fromBase64_idx43`. -/
def fromBase64_idx43 : Bytes :=
  [ -- '+'
    62,
    0, 0, 0,
    -- '/'
    63, 52, 53, 54, 55, 56, 57, 58, 59, 60, 61, 0,
    0, 0, 0, 0, 0, 0,
    -- 'A'
    0, 1, 2, 3, 4, 5, 6, 7, 8, 9, 10, 11, 12, 13, 14,
    15, 16, 17, 18, 19, 20, 21, 22, 23, 24, 25,
    0, 0, 0, 0, 0, 0,
    -- 'a'
    26, 27, 28, 29, 30, 31, 32, 33, 34, 35, 36, 37, 38,
    39, 40, 41, 42, 43, 44, 45, 46, 47, 48, 49, 50, 51 ]

/-- `isBase64`. -/
def isBase64 (ch : UInt8) : Bool := isalnum ch || ch == 47 || ch == 43

/-- The numbers of base 64 characters. -/
def fromChars (array4 : Bytes) : Bytes :=
  array4.map fun ch => fromBase64_idx43.getD (ch.toNat - 43) 0

/-- Compact 4 characters into 3. -/
def compact (array4 : Bytes) : Bytes :=
  [(array4.getD 0 0 <<< 2) ||| ((array4.getD 1 0 &&& 0x30) >>> 4),
    ((array4.getD 1 0 &&& 0x0f) <<< 4) ||| ((array4.getD 2 0 &&& 0x3c) >>> 2),
    ((array4.getD 2 0 &&& 0x03) <<< 6) ||| array4.getD 3 0]

section Decode

/-! The content of memory that was just allocated: for each allocation, whatever is there. -/

variable (fresh : ℕ → ℕ → UInt8)

/-- `malloc`, the allocation with the given number. -/
def malloc (count size : ℕ) : Bytes := (List.range size).map (fresh count)

/-- `realloc` to a larger size. -/
def realloc (mem : Bytes) (count size : ℕ) : Bytes :=
  mem ++ (List.range' mem.length (size - mem.length)).map (fresh count)

/-- The variables of `DecodeBase64`: the filled parts of its arrays, and the allocated memory. -/
structure DecodeState where
  /-- `array4`, of `a4Idx` characters. -/
  array4 : Bytes
  /-- `buildBuffer`, of `buildIdx` characters. -/
  buildBuffer : Bytes
  /-- `decodedLength`. -/
  decodedLength : ℕ
  /-- `blockBegin`. -/
  blockBegin : ℕ
  /-- The memory that `result` points to. -/
  result : Bytes
  /-- `allocCount`. -/
  allocCount : ℕ

/-- One character of the source. -/
def decodeStep (st : DecodeState) (ch : UInt8) : DecodeState :=
  match st.array4 with
  | [a, b, c] =>
      let buildBuffer := st.buildBuffer ++ compact (fromChars [a, b, c, ch])
      let decodedLength := st.decodedLength + 3
      if sizeofBuildBuffer - 5 ≤ buildBuffer.length then
        let result := memcpy st.result st.blockBegin buildBuffer
        let allocCount := st.allocCount + 1
        ⟨[], [], decodedLength, st.blockBegin + buildBuffer.length,
          realloc fresh result allocCount (allocCount * sizeofBuildBuffer), allocCount⟩
      else ⟨[], buildBuffer, decodedLength, st.blockBegin, st.result, st.allocCount⟩
  | array4 => { st with array4 := array4 ++ [ch] }

/-- The remaining characters. -/
def decodeRemaining (st : DecodeState) : DecodeState :=
  if st.array4.length ≠ 0 then
    let array4 := fromChars st.array4 ++ List.replicate (4 - st.array4.length) 0
    let last := (compact array4).take (st.array4.length - 1)
    let buildBuffer := st.buildBuffer ++ last
    { st with
      buildBuffer := buildBuffer
      decodedLength := st.decodedLength + last.length
      result := memcpy st.result st.blockBegin buildBuffer }
  else st

/-- `DecodeBase64`: the decoded characters and the length that is stored with the caller. -/
def decodeBase64 (source : Bytes) : Bytes × ℕ :=
  let chars := source.takeWhile fun ch => ch != 61 && isBase64 ch
  let st := decodeRemaining
    (chars.foldl (decodeStep fresh) ⟨[], [], 0, 0, malloc fresh 1 sizeofBuildBuffer, 1⟩)
  (st.result.take st.decodedLength, st.decodedLength)

/-- The reader stops at none of the 64 digits, and the table has the number of each. -/
theorem isBase64_digit {v : ℕ} (h : v < 64) :
    (Base64.digit v != 61 && isBase64 (Base64.digit v)) = true ∧
      fromBase64_idx43.getD ((Base64.digit v).toNat - 43) 0 = UInt8.ofNat v := by
  have key : ∀ v : Fin 64, (Base64.digit v != 61 && isBase64 (Base64.digit v)) = true ∧
      fromBase64_idx43.getD ((Base64.digit v).toNat - 43) 0 = UInt8.ofNat v := by decide +kernel
  exact key ⟨v, h⟩

/-- The numbers of the characters of a group. -/
theorem fromChars_encodeGroup (a b c : UInt8) :
    fromChars (Base64.encodeGroup a b c) = (Base64.sextets a b c).map UInt8.ofNat := by
  rw [fromChars, Base64.encodeGroup, List.map_map]
  refine List.map_congr_left fun v hv => ?_
  have ha := a.toNat_lt
  have hb := b.toNat_lt
  have hc := c.toNat_lt
  rw [Base64.sextets_eq] at hv
  simp only [List.mem_cons, List.not_mem_nil, or_false] at hv
  exact (isBase64_digit (by omega)).2

/-- **Compacting undoes expanding.** -/
theorem compact_encodeGroup (a b c : UInt8) :
    compact (fromChars (Base64.encodeGroup a b c)) = [a, b, c] := by
  have ha := a.toNat_lt
  have hb := b.toNat_lt
  have hc := c.toNat_lt
  have hofNat : ∀ n < 256, (UInt8.ofNat n).toNat = n := fun n hn => Nat.mod_eq_of_lt hn
  rw [fromChars_encodeGroup, Base64.sextets_eq]
  simp only [compact, List.map_cons, List.map_nil, List.getD_cons_zero, List.getD_cons_succ]
  generalize hs₀ : UInt8.ofNat (a.toNat / 4) = s₀
  generalize hs₁ : UInt8.ofNat (a.toNat % 4 * 16 + b.toNat / 16) = s₁
  generalize hs₂ : UInt8.ofNat (b.toNat % 16 * 4 + c.toNat / 64) = s₂
  generalize hs₃ : UInt8.ofNat (c.toNat % 64) = s₃
  have hn₀ : s₀.toNat = a.toNat / 4 := by rw [← hs₀, hofNat _ (by omega)]
  have hn₁ : s₁.toNat = a.toNat % 4 * 16 + b.toNat / 16 := by rw [← hs₁, hofNat _ (by omega)]
  have hn₂ : s₂.toNat = b.toNat % 16 * 4 + c.toNat / 64 := by rw [← hs₂, hofNat _ (by omega)]
  have hn₃ : s₃.toNat = c.toNat % 64 := by rw [← hs₃, hofNat _ (by omega)]
  have h₁ : ((s₁ &&& 0x30) >>> 4).toNat = s₁.toNat / 16 % 4 :=
    toNat_and_shiftRight (j := 2) (by decide) (by decide) s₁
  have h₂ : ((s₂ &&& 0x3c) >>> 2).toNat = s₂.toNat / 4 % 16 :=
    toNat_and_shiftRight (j := 4) (by decide) (by decide) s₂
  have h₃ : (s₁ &&& 0x0f).toNat = s₁.toNat % 16 := toNat_and_mask (j := 4) (by decide) s₁
  have h₄ : (s₂ &&& 0x03).toNat = s₂.toNat % 4 := toNat_and_mask (j := 2) (by decide) s₂
  have h₅ := toNat_shiftLeft_or (x := s₀) (y := (s₁ &&& 0x30) >>> 4) (k := 2) (by decide)
    (by rw [hn₀]; simp; omega) (by rw [h₁]; simp; omega)
  have h₆ := toNat_shiftLeft_or (x := s₁ &&& 0x0f) (y := (s₂ &&& 0x3c) >>> 2) (k := 4) (by decide)
    (by rw [h₃]; simp; omega) (by rw [h₂]; simp; omega)
  have h₇ := toNat_shiftLeft_or (x := s₂ &&& 0x03) (y := s₃) (k := 6) (by decide)
    (by rw [h₄]; simp; omega) (by rw [hn₃]; simp; omega)
  simp only [List.cons.injEq, and_true, ← UInt8.toNat_inj, h₅, h₆, h₇, h₁, h₂, h₃, h₄,
    hn₀, hn₁, hn₂, hn₃, UInt8.reduceToNat]
  -- each octet on its own
  refine ⟨?_, ?_, ?_⟩
  · omega
  · omega
  · omega

/-- The state of the decoder is an output that is copied into allocated memory: the memory behind
what was copied is still as it was allocated, and there is room for the whole buffer. -/
structure DecodeState.Holds (st : DecodeState) (b : Buffer UInt8) : Prop where
  buildBuffer : st.buildBuffer = b.held
  blockBegin : st.blockBegin = b.flushed.length
  decodedLength : st.decodedLength = b.content.length
  length_result : st.result.length = st.allocCount * sizeofBuildBuffer
  held_lt : b.held.length < sizeofBuildBuffer - 5
  result : ∃ tail, st.result = b.flushed ++ tail ∧ sizeofBuildBuffer ≤ tail.length ∧
    ∀ v ∈ tail, ∃ k i, v = fresh k i

/-- `realloc` keeps the memory and appends freshly allocated memory. -/
theorem exists_realloc (mem : Bytes) (count size : ℕ) :
    ∃ new, realloc fresh mem count size = mem ++ new ∧ new.length = size - mem.length ∧
      ∀ v ∈ new, ∃ k i, v = fresh k i := by
  refine ⟨_, rfl, by simp, fun v hv => ?_⟩
  obtain ⟨i, -, rfl⟩ := List.mem_map.1 hv
  exact ⟨count, i, rfl⟩

theorem length_malloc (count size : ℕ) : (malloc fresh count size).length = size := by
  simp [malloc]

theorem exists_of_mem_malloc {count size : ℕ} {v : UInt8} (h : v ∈ malloc fresh count size) :
    ∃ k i, v = fresh k i := by
  obtain ⟨i, -, rfl⟩ := List.mem_map.1 h
  exact ⟨count, i, rfl⟩

/-- The state before the first character. -/
theorem holds_start (mem : Bytes) (hlen : mem.length = sizeofBuildBuffer)
    (hfresh : ∀ v ∈ mem, ∃ k i, v = fresh k i) :
    DecodeState.Holds fresh ⟨[], [], 0, 0, mem, 1⟩ Buffer.empty where
  buildBuffer := rfl
  blockBegin := rfl
  decodedLength := rfl
  length_result := hlen.trans (Nat.one_mul _).symm
  held_lt := by decide
  result := ⟨mem, rfl, hlen.ge, hfresh⟩

/-- **Four characters** of the source. -/
theorem holds_foldl_digits {st : DecodeState} {b : Buffer UInt8} (h : st.Holds fresh b)
    (ha : st.array4 = []) (g : UInt8 × UInt8 × UInt8) :
    ((Base64.digits g).foldl (decodeStep fresh) st).Holds fresh
        (Buffer.push (sizeofBuildBuffer - 5) b (Base64.octets g)) ∧
      ((Base64.digits g).foldl (decodeStep fresh) st).array4 = [] := by
  obtain ⟨d₁, d₂, d₃, d₄, hdigits⟩ : ∃ d₁ d₂ d₃ d₄, Base64.digits g = [d₁, d₂, d₃, d₄] :=
    ⟨_, _, _, _, rfl⟩
  have hcompact : compact (fromChars [d₁, d₂, d₃, d₄]) = Base64.octets g := by
    rw [← hdigits]
    exact compact_encodeGroup _ _ _
  obtain ⟨array4, buildBuffer, decodedLength, blockBegin, result, allocCount⟩ := st
  obtain ⟨rfl, rfl, rfl, hresult, hheld, tail, rfl, hroom, htail⟩ := h
  obtain rfl : array4 = [] := ha
  simp only [hdigits, List.foldl_cons, List.foldl_nil, decodeStep, List.nil_append,
    List.cons_append, hcompact]
  have hlength : (b.held ++ Base64.octets g).length = b.held.length + 3 := by
    rw [List.length_append, Base64.length_octets]
  have hcontent : b.content.length + 3
      = (Buffer.push (sizeofBuildBuffer - 5) b (Base64.octets g)).content.length := by
    rw [Buffer.content_push, List.length_append, Base64.length_octets]
  by_cases hfull : sizeofBuildBuffer - 5 ≤ b.held.length + 3
  · -- the buffer is copied, and the result grows by one allocation
    have hpush : Buffer.push (sizeofBuildBuffer - 5) b (Base64.octets g)
        = ⟨b.flushed ++ (b.held ++ Base64.octets g), []⟩ := by
      rw [Buffer.push, Base64.length_octets, if_pos hfull]
    have hcopied : (b.held ++ Base64.octets g).length ≤ tail.length := by
      rw [sizeofBuildBuffer] at hroom hheld
      rw [hlength]
      omega
    rw [if_pos (by rwa [hlength]), memcpy_append]
    rw [hpush] at hcontent ⊢
    obtain ⟨new, hnew, hlen, hfresh⟩ := exists_realloc fresh
      (b.flushed ++ (b.held ++ Base64.octets g) ++ tail.drop (b.held ++ Base64.octets g).length)
      (allocCount + 1) ((allocCount + 1) * sizeofBuildBuffer)
    have hsame : (b.flushed ++ (b.held ++ Base64.octets g)
        ++ tail.drop (b.held ++ Base64.octets g).length).length =
          allocCount * sizeofBuildBuffer := by
      rw [List.length_append, List.length_append, List.length_drop, Nat.add_assoc,
        Nat.add_sub_cancel' hcopied, ← List.length_append]
      exact hresult
    rw [hsame, Nat.succ_mul, Nat.add_sub_cancel_left] at hlen
    refine ⟨⟨rfl, List.length_append.symm, hcontent, ?_, by simp [sizeofBuildBuffer], ?_⟩, rfl⟩
    · show (realloc fresh _ _ _).length = _
      rw [hnew, List.length_append, hsame, hlen, Nat.succ_mul]
    · refine ⟨tail.drop (b.held ++ Base64.octets g).length ++ new, ?_, ?_, fun v hv => ?_⟩
      · exact hnew.trans (List.append_assoc _ _ _)
      · rw [List.length_append, hlen]
        exact Nat.le_add_left _ _
      · rcases List.mem_append.1 hv with hv | hv
        · exact htail v (List.mem_of_mem_drop hv)
        · exact hfresh v hv
  · have hpush : Buffer.push (sizeofBuildBuffer - 5) b (Base64.octets g)
        = ⟨b.flushed, b.held ++ Base64.octets g⟩ := by
      rw [Buffer.push, Base64.length_octets, if_neg hfull]
    rw [if_neg (by rwa [hlength])]
    rw [hpush] at hcontent ⊢
    refine ⟨⟨rfl, rfl, hcontent, hresult, ?_, tail, rfl, hroom, htail⟩, rfl⟩
    rw [hlength]
    omega

/-- The output after the complete groups of a string. -/
def decodedGroups (x : Bytes) : Buffer UInt8 :=
  ((Base64.groups x).map Base64.octets).foldl (Buffer.push (sizeofBuildBuffer - 5)) Buffer.empty

theorem content_decodedGroups (x : Bytes) :
    (decodedGroups x).content = ((Base64.groups x).map Base64.octets).flatten := by
  rw [decodedGroups, Buffer.content_foldl_push, Buffer.content_empty, List.nil_append]

/-- 681 groups fill the buffer. -/
theorem length_held_decodedGroups (x : Bytes) :
    (decodedGroups x).held.length = 3 * ((Base64.groups x).length % 681) := by
  have hgroups : ∀ block ∈ (Base64.groups x).map Base64.octets, block.length = 3 := by
    intro block hblock
    obtain ⟨g, -, rfl⟩ := List.mem_map.1 hblock
    rfl
  rw [decodedGroups, Buffer.length_held_foldl_push (m := 681) (by omega) (by decide)
    (fun j hj => by rw [sizeofBuildBuffer]; omega) hgroups, List.length_map]

/-- All complete groups of a string. -/
theorem holds_foldl_groups (gs : List (UInt8 × UInt8 × UInt8)) {st : DecodeState}
    {b : Buffer UInt8} (h : st.Holds fresh b) (ha : st.array4 = []) :
    (((gs.map Base64.digits).flatten).foldl (decodeStep fresh) st).Holds fresh
        ((gs.map Base64.octets).foldl (Buffer.push (sizeofBuildBuffer - 5)) b) ∧
      (((gs.map Base64.digits).flatten).foldl (decodeStep fresh) st).array4 = [] := by
  induction gs generalizing st b with
  | nil => exact ⟨h, ha⟩
  | cons g gs ih =>
      obtain ⟨hg, hg'⟩ := holds_foldl_digits fresh h ha g
      rw [List.map_cons, List.flatten_cons, List.foldl_append, List.map_cons, List.foldl_cons]
      exact ih hg hg'

/-- The digits of the incomplete group at the end of a string. -/
def restDigits : Bytes → Bytes
  | [a] => (Base64.encodeGroup a 0 0).take 2
  | [a, b] => (Base64.encodeGroup a b 0).take 3
  | _ => []

/-- **What the reader takes from an encoded string**: all digits, up to the padding. -/
theorem takeWhile_encode (x : Bytes) :
    (Base64.encode x).takeWhile (fun ch => ch != 61 && isBase64 ch)
      = ((Base64.groups x).map Base64.digits).flatten ++ restDigits (Base64.rest x) := by
  have hgroup : ∀ {a b c ch : UInt8}, ch ∈ Base64.encodeGroup a b c →
      (ch != 61 && isBase64 ch) = true := by
    intro a b c ch hch
    obtain ⟨v, hv, rfl⟩ := Base64.exists_of_mem_encodeGroup hch
    exact (isBase64_digit hv).1
  have hdigits : ∀ ch ∈ ((Base64.groups x).map Base64.digits).flatten,
      (ch != 61 && isBase64 ch) = true := by
    intro ch hch
    obtain ⟨block, hblock, hch⟩ := List.mem_flatten.1 hch
    obtain ⟨g, -, rfl⟩ := List.mem_map.1 hblock
    exact hgroup hch
  rw [Base64.encode_eq, List.takeWhile_append_of_pos hdigits]
  congr 1
  obtain hrest | ⟨a, hrest⟩ | ⟨a, b, hrest⟩ := Base64.rest_cases x
  · rw [hrest]
    rfl
  · rw [hrest, Base64.encode, restDigits,
      List.takeWhile_append_of_pos fun ch hch => hgroup (List.mem_of_mem_take hch)]
    simp [Base64.pad]
  · rw [hrest, Base64.encode, restDigits,
      List.takeWhile_append_of_pos fun ch hch => hgroup (List.mem_of_mem_take hch)]
    simp [Base64.pad]

/-- The last characters are the octets of the incomplete group. -/
theorem compact_restDigits {r : Bytes} (hr : r.length < 3) (hne : r ≠ []) :
    (compact (fromChars (restDigits r)
        ++ List.replicate (4 - (restDigits r).length) 0)).take ((restDigits r).length - 1) = r := by
  match r, hr, hne with
  | [a], _, _ =>
      have hzero : fromChars (restDigits [a]) ++ List.replicate 2 0
          = fromChars (Base64.encodeGroup a 0 0) := by
        rw [restDigits, fromChars, List.map_take]
        change (fromChars _).take 2 ++ _ = _
        rw [fromChars_encodeGroup, Base64.sextets_eq]
        rfl
      change (compact (fromChars (restDigits [a]) ++ List.replicate 2 0)).take 1 = [a]
      rw [hzero, compact_encodeGroup]
      rfl
  | [a, b], _, _ =>
      have hzero : fromChars (restDigits [a, b]) ++ List.replicate 1 0
          = fromChars (Base64.encodeGroup a b 0) := by
        rw [restDigits, fromChars, List.map_take]
        change (fromChars _).take 3 ++ _ = _
        rw [fromChars_encodeGroup, Base64.sextets_eq]
        rfl
      change (compact (fromChars (restDigits [a, b]) ++ List.replicate 1 0)).take 2 = [a, b]
      rw [hzero, compact_encodeGroup]
      rfl
  | _ :: _ :: _ :: _, hr, _ => simp at hr; omega

/-- The state after the complete groups of an encoded string. -/
theorem exists_foldl_encode (x : Bytes) :
    ∃ tail allocCount, (∀ v ∈ tail, ∃ k i, v = fresh k i) ∧
      ((Base64.encode x).takeWhile fun ch => ch != 61 && isBase64 ch).foldl (decodeStep fresh)
          ⟨[], [], 0, 0, malloc fresh 1 sizeofBuildBuffer, 1⟩
        = (restDigits (Base64.rest x)).foldl (decodeStep fresh)
          ⟨[], (decodedGroups x).held, (decodedGroups x).content.length,
            (decodedGroups x).flushed.length, (decodedGroups x).flushed ++ tail, allocCount⟩ := by
  obtain ⟨mem, hmem⟩ : ∃ mem, malloc fresh 1 sizeofBuildBuffer = mem := ⟨_, rfl⟩
  have hstart := holds_start fresh mem (hmem ▸ length_malloc fresh _ _)
    fun v hv => exists_of_mem_malloc fresh (hmem ▸ hv)
  obtain ⟨hholds, harray4⟩ := holds_foldl_groups fresh (Base64.groups x) hstart rfl
  have hdecoded : ((Base64.groups x).map Base64.octets).foldl
      (Buffer.push (sizeofBuildBuffer - 5)) Buffer.empty = decodedGroups x := rfl
  rw [hdecoded] at hholds
  rw [takeWhile_encode, List.foldl_append, hmem]
  generalize ((Base64.groups x).map Base64.digits).flatten.foldl (decodeStep fresh)
    ⟨[], [], 0, 0, mem, 1⟩ = st at hholds harray4 ⊢
  obtain ⟨array4, buildBuffer, decodedLength, blockBegin, result, allocCount⟩ := st
  obtain ⟨rfl, rfl, rfl, -, -, tail, rfl, -, htail⟩ := hholds
  obtain rfl : array4 = [] := harray4
  exact ⟨tail, allocCount, htail, rfl⟩

/-- A string is its complete groups, copied or not, and what is left. -/
theorem content_append_rest (x : Bytes) :
    (decodedGroups x).flushed ++ (decodedGroups x).held ++ Base64.rest x = x := by
  conv_rhs => rw [← Base64.flatten_groups x, ← content_decodedGroups]
  rfl

/-- An incomplete group brings the whole buffer with it. -/
theorem decodeBase64_encode_of_rest_ne {x : Bytes} (h : Base64.rest x ≠ []) :
    decodeBase64 fresh (Base64.encode x) = (x, x.length) := by
  obtain ⟨tail, allocCount, -, hfold⟩ := exists_foldl_encode fresh x
  have hchars : (restDigits (Base64.rest x)).foldl (decodeStep fresh)
        ⟨[], (decodedGroups x).held, (decodedGroups x).content.length,
          (decodedGroups x).flushed.length, (decodedGroups x).flushed ++ tail, allocCount⟩
      = ⟨restDigits (Base64.rest x), (decodedGroups x).held, (decodedGroups x).content.length,
          (decodedGroups x).flushed.length, (decodedGroups x).flushed ++ tail, allocCount⟩ ∧
      (restDigits (Base64.rest x)).length ≠ 0 := by
    obtain hrest | ⟨a, hrest⟩ | ⟨a, b, hrest⟩ := Base64.rest_cases x
    · exact absurd hrest h
    · rw [hrest]
      exact ⟨rfl, by simp [restDigits]⟩
    · rw [hrest]
      exact ⟨rfl, by simp [restDigits]⟩
  have hlength : (decodedGroups x).content.length + (Base64.rest x).length = x.length := by
    conv_rhs => rw [← content_append_rest x]
    rw [List.length_append, Buffer.content]
  have hcopy : memcpy ((decodedGroups x).flushed ++ tail) (decodedGroups x).flushed.length
        ((decodedGroups x).held ++ Base64.rest x)
      = x ++ tail.drop ((decodedGroups x).held ++ Base64.rest x).length := by
    rw [memcpy_append, ← List.append_assoc, content_append_rest]
  simp only [decodeBase64, hfold, hchars.1, decodeRemaining, if_pos hchars.2,
    compact_restDigits (Base64.length_rest_lt x) h, hlength, hcopy, List.take_left]

/-- Without an incomplete group the end of the result is still as it was allocated. -/
theorem decodeBase64_encode_of_rest_eq {x : Bytes} (h : Base64.rest x = []) :
    ∃ tail, (∀ v ∈ tail, ∃ k i, v = fresh k i) ∧
      decodeBase64 fresh (Base64.encode x)
        = (((decodedGroups x).flushed ++ tail).take x.length, x.length) := by
  obtain ⟨tail, allocCount, htail, hfold⟩ := exists_foldl_encode fresh x
  refine ⟨tail, htail, ?_⟩
  have hx := content_append_rest x
  rw [h, List.append_nil] at hx
  have hlength : (decodedGroups x).content.length = x.length := congrArg List.length hx
  simp only [decodeBase64, hfold, h, restDigits, List.foldl_nil, decodeRemaining, List.length_nil,
    ne_eq, not_true_eq_false, if_false, hlength]

end Decode

/-- **When decoding undoes the encoding**, whatever the allocated memory holds: there is an
incomplete group, or the last group filled the buffer. -/
theorem decodeBase64_encode_iff (x : Bytes) :
    (∀ fresh : ℕ → ℕ → UInt8, decodeBase64 fresh (Base64.encode x) = (x, x.length)) ↔
      x.length % 3 ≠ 0 ∨ x.length % 2043 = 0 := by
  have hlength := Base64.length_eq x
  have hheld := length_held_decodedGroups x
  by_cases hrest : Base64.rest x = []
  · have hmod := (Base64.rest_eq_nil_iff x).1 hrest
    have hx := content_append_rest x
    rw [hrest, List.append_nil] at hx
    rw [hrest, List.length_nil] at hlength
    constructor
    · intro h
      by_contra hnot
      -- an octet that was never copied differs from what the memory may hold there
      obtain ⟨v, held, hcons⟩ : ∃ v held, (decodedGroups x).held = v :: held := by
        refine List.exists_cons_of_ne_nil fun hnil => ?_
        rw [hnil, List.length_nil] at hheld
        omega
      obtain ⟨tail, htail, heq⟩ := decodeBase64_encode_of_rest_eq (fun _ _ => v + 1) hrest
      have hsame : ((decodedGroups x).flushed ++ tail).take x.length = x :=
        (Prod.mk.inj (heq.symm.trans (h fun _ _ => v + 1))).1
      have hcancel : ∀ a t : Bytes, (a ++ tail).take (a ++ t).length = a ++ t →
          tail.take t.length = t := by
        intro a t ht
        rw [List.length_append, List.take_length_add_append] at ht
        exact List.append_cancel_left ht
      have htake : tail.take (v :: held).length = v :: held :=
        hcancel (decodedGroups x).flushed _ (by rwa [← hcons, hx])
      obtain ⟨-, -, hv⟩ := htail v (List.mem_of_mem_take (htake ▸ List.mem_cons_self))
      have hnat := congrArg UInt8.toNat hv
      simp only [UInt8.toNat_add, UInt8.reduceToNat] at hnat
      omega
    · intro hcond fresh
      have hnil : (decodedGroups x).held = [] := List.length_eq_zero_iff.1 (by omega)
      rw [hnil, List.append_nil] at hx
      obtain ⟨tail, -, heq⟩ := decodeBase64_encode_of_rest_eq fresh hrest
      rw [heq, hx, List.take_left]
  · have hmod := mt (Base64.rest_eq_nil_iff x).2 hrest
    exact ⟨fun _ => .inl hmod, fun _ fresh => decodeBase64_encode_of_rest_ne fresh hrest⟩

/-- The encoding of three characters is decoded to whatever the allocated memory holds. -/
theorem not_decodeBase64_encode :
    ¬ ∀ (x : Bytes) (fresh : ℕ → ℕ → UInt8),
      decodeBase64 fresh (Base64.encode x) = (x, x.length) := by
  intro h
  exact absurd (h (ascii "abc") fun _ _ => 0) (by decide +kernel)

end AwsS3fs
