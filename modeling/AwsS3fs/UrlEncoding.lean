/-
**Encoding of URLs.**

`EncodeUrl` (`s3if.c`) writes the prefix and the marker of a listing into a query.  It works on
characters with a sign, shifts them, and takes the digits of the hexadecimal notation from the bits
that are left, so that a negative character is encoded like the byte that it is.

Main definitions:

* `AwsS3fs.encodeChar` — what the loop of `EncodeUrl` writes for a character with a sign;
* `AwsS3fs.isUrlSafe` — the characters of an encoded text.

Main results:

* `AwsS3fs.encodeUrl_eq` — the encoding of the listings is that of the loop;
* `AwsS3fs.decode_encodeChar` — a character is read back;
* `AwsS3fs.encodeUrl_decodes` — **an encoded text is read back, is safe, and fits its buffer**.
-/

import AwsS3fs.Lib.FormUrl
import AwsS3fs.ListingPages

set_option relaxedAutoImplicit false
set_option autoImplicit false

namespace AwsS3fs

open CLib FormUrl

/-! ### The loop -/

/-- The index of `hexChar` for the upper half of a character, `( ch >> 4 ) & 0x0f`. -/
def upperIndex (ch : Int8) : Int32 := (ch.toInt32 >>> 4) &&& 0x0f

/-- The index of `hexChar` for the lower half of a character, `ch & 0x0f`. -/
def lowerIndex (ch : Int8) : Int32 := ch.toInt32 &&& 0x0f

/-- What the loop of `EncodeUrl` writes for a character. -/
def encodeChar (ch : Int8) : Bytes :=
  let hexChar := ascii "0123456789ABCDEF"
  if isalnum ch.toUInt8 ∨ ch = 45 ∨ ch = 95 ∨ ch = 46 ∨ ch = 126 then [ch.toUInt8]
  else if ch = 32 then [43]
  else [37, hexChar.getD (upperIndex ch).toInt.toNat 0, hexChar.getD (lowerIndex ch).toInt.toNat 0]

/-- The characters `[A-Za-z0-9_.~+%-]`. -/
def isUrlSafe (ch : UInt8) : Bool :=
  isalnum ch || ch == 95 || ch == 46 || ch == 126 || ch == 43 || ch == 37 || ch == 45

/-- The sign does not matter for the two halves of a byte. -/
theorem halves_eq : ∀ n < 256, (upperIndex (UInt8.ofNat n).toInt8).toInt.toNat = n / 16 ∧
    (lowerIndex (UInt8.ofNat n).toInt8).toInt.toNat = n % 16 := by
  decide +kernel

theorem upperIndex_toInt8 (ch : UInt8) : (upperIndex ch.toInt8).toInt.toNat = ch.toNat / 16 := by
  simpa using (halves_eq ch.toNat ch.toNat_lt).1

theorem lowerIndex_toInt8 (ch : UInt8) : (lowerIndex ch.toInt8).toInt.toNat = ch.toNat % 16 := by
  simpa using (halves_eq ch.toNat ch.toNat_lt).2

/-- A byte in the loop. -/
theorem encodeChar_toInt8 (ch : UInt8) :
    encodeChar ch.toInt8 =
      if isalnum ch ∨ ch = 45 ∨ ch = 95 ∨ ch = 46 ∨ ch = 126 then [ch]
      else if ch = 32 then [43]
      else [37, hexDigits.getD (ch.toNat / 16) 0, hexDigits.getD (ch.toNat % 16) 0] := by
  have hinj : ∀ ch' : UInt8, ch.toInt8 = ch'.toInt8 ↔ ch = ch' := by
    intro ch'
    exact ⟨fun h => by simpa using congrArg Int8.toUInt8 h, congrArg UInt8.toInt8⟩
  simp only [encodeChar, upperIndex_toInt8, lowerIndex_toInt8, UInt8.toUInt8_toInt8, hexDigits]
  simp only [← hinj]
  rfl

/-- The encoding of the listings is that of the loop. -/
theorem encodeUrl_eq (url : Bytes) :
    encodeUrl url = url.flatMap fun ch => encodeChar ch.toInt8 := by
  rw [encodeUrl]
  congr 1
  funext ch
  rw [encodeChar_toInt8]
  rfl

/-! ### One character -/

/-- **A character is read back**, whatever comes behind it. -/
theorem decode_encodeChar (ch : UInt8) (rest : Bytes) :
    decode (encodeChar ch.toInt8 ++ rest) = ch :: decode rest := by
  rw [encodeChar_toInt8]
  split
  case isTrue hplain =>
    have hpercent : ch ≠ 37 := by
      rintro rfl
      revert hplain
      decide
    have hplus : ch ≠ 43 := by
      rintro rfl
      revert hplain
      decide
    rw [List.singleton_append, decode_plain hpercent, if_neg hplus]
  case isFalse =>
    split
    case isTrue hblank =>
      rw [List.singleton_append, decode_plain (by decide), if_pos rfl, hblank]
    case isFalse =>
      have hlt := ch.toNat_lt
      have hvalue : 16 * (ch.toNat / 16) + ch.toNat % 16 = ch.toNat := by omega
      rw [List.cons_append, List.cons_append, List.singleton_append,
        decode_percent (by omega) (by omega), hvalue, UInt8.ofNat_toNat]

/-- The digits are safe. -/
theorem isUrlSafe_hexDigits : ∀ n < 16, isUrlSafe (hexDigits.getD n 0) = true := by
  decide

/-- A character is written with safe characters. -/
theorem isUrlSafe_of_mem_encodeChar {ch c : UInt8} (h : c ∈ encodeChar ch.toInt8) :
    isUrlSafe c = true := by
  rw [encodeChar_toInt8] at h
  split at h
  case isTrue hplain =>
    obtain rfl := List.mem_singleton.1 h
    rw [isUrlSafe]
    rcases hplain with halnum | rfl | rfl | rfl | rfl
    · simp [halnum]
    · rfl
    · rfl
    · rfl
    · rfl
  case isFalse =>
    split at h
    · obtain rfl := List.mem_singleton.1 h
      rfl
    · have hlt := ch.toNat_lt
      rcases List.mem_cons.1 h with rfl | h
      · rfl
      rcases List.mem_cons.1 h with rfl | h
      · exact isUrlSafe_hexDigits _ (by omega)
      · rw [List.mem_singleton.1 h]
        exact isUrlSafe_hexDigits _ (by omega)

theorem length_encodeChar_le (ch : Int8) : (encodeChar ch).length ≤ 3 := by
  rw [encodeChar]
  split
  · exact Nat.le_of_ble_eq_true rfl
  · split
    · exact Nat.le_of_ble_eq_true rfl
    · exact Nat.le_refl 3

/-! ### A text -/

/-- The buffer that `EncodeUrl` allocates is large enough. -/
theorem length_encodeUrl_le (url : Bytes) : (encodeUrl url).length ≤ 3 * url.length := by
  rw [encodeUrl_eq]
  induction url with
  | nil => exact Nat.le_refl 0
  | cons ch url ih =>
      have hle := length_encodeChar_le ch.toInt8
      rw [List.flatMap_cons, List.length_append, List.length_cons]
      omega

theorem decode_encodeUrl (url : Bytes) : decode (encodeUrl url) = url := by
  rw [encodeUrl_eq]
  exact decode_flatMap decode_encodeChar url

/-- **An encoded text is read back, is safe, and fits its buffer**, so that different texts are
encoded differently. -/
theorem encodeUrl_decodes (url : Bytes) :
    decode (encodeUrl url) = url ∧ (∀ ch ∈ encodeUrl url, isUrlSafe ch = true) ∧
      (encodeUrl url).length ≤ 3 * url.length ∧ Function.Injective encodeUrl := by
  refine ⟨decode_encodeUrl url, ?_, length_encodeUrl_le url, ?_⟩
  · intro c hc
    rw [encodeUrl_eq] at hc
    obtain ⟨ch, -, hmem⟩ := List.mem_flatMap.1 hc
    exact isUrlSafe_of_mem_encodeChar hmem
  · exact Function.LeftInverse.injective decode_encodeUrl

/-- A blank, a letter with an accent and the plus sign. -/
example : encodeUrl (ascii "a b" ++ [195, 169, 43]) = ascii "a+b%C3%A9%2B" := by decide +kernel

end AwsS3fs
