/-
**Form-urlencoded text.**

In a query a blank is written as a plus sign, and any byte may be written as a percent sign and two
hexadecimal digits.  A text that is written byte by byte is read back if the way in which each byte
is written is read back, whatever comes behind it.

Main definitions:

* `FormUrl.hexValue` — the value of a hexadecimal digit;
* `FormUrl.decode` — reading form-urlencoded text.

Main results:

* `FormUrl.decode_percent`, `FormUrl.decode_plain` — reading a byte;
* `FormUrl.decode_flatMap` — **a text that is written byte by byte is read back**.
-/

import AwsS3fs.Lib.Bytes

set_option relaxedAutoImplicit false
set_option autoImplicit false

namespace FormUrl

open CLib

/-- The digits of the hexadecimal notation. -/
def hexDigits : Bytes := ascii "0123456789ABCDEF"

/-- The value of a hexadecimal digit. -/
def hexValue (ch : UInt8) : Option ℕ :=
  if 48 ≤ ch && ch ≤ 57 then some (ch.toNat - 48)
  else if 65 ≤ ch && ch ≤ 70 then some (ch.toNat - 55)
  else if 97 ≤ ch && ch ≤ 102 then some (ch.toNat - 87)
  else none

/-- Reading form-urlencoded text.  A percent sign that no two digits follow stands for itself. -/
def decode : Bytes → Bytes
  | [] => []
  | [ch] => [if ch = 43 then 32 else ch]
  | [ch, ch'] => (if ch = 43 then 32 else ch) :: decode [ch']
  | ch :: high :: low :: rest =>
      if ch = 37 then
        match hexValue high, hexValue low with
        | some h, some l => UInt8.ofNat (16 * h + l) :: decode rest
        | _, _ => 37 :: decode (high :: low :: rest)
      else (if ch = 43 then 32 else ch) :: decode (high :: low :: rest)

/-- The digit with a value. -/
theorem hexValue_hexDigits : ∀ n, n < 16 → hexValue (hexDigits.getD n 0) = some n := by
  decide

/-- A byte that stands for itself, or a plus sign. -/
theorem decode_plain {ch : UInt8} (hch : ch ≠ 37) (rest : Bytes) :
    decode (ch :: rest) = (if ch = 43 then 32 else ch) :: decode rest := by
  match rest with
  | [] => rfl
  | [_] => rfl
  | _ :: _ :: _ => exact if_neg hch

/-- A byte in hexadecimal notation. -/
theorem decode_percent {high low : ℕ} (hhigh : high < 16) (hlow : low < 16) (rest : Bytes) :
    decode (37 :: hexDigits.getD high 0 :: hexDigits.getD low 0 :: rest) =
      UInt8.ofNat (16 * high + low) :: decode rest := by
  rw [decode, if_pos rfl, hexValue_hexDigits high hhigh, hexValue_hexDigits low hlow]

/-- **A text that is written byte by byte is read back.** -/
theorem decode_flatMap {encode : UInt8 → Bytes}
    (hencode : ∀ ch rest, decode (encode ch ++ rest) = ch :: decode rest) (text : Bytes) :
    decode (text.flatMap encode) = text := by
  induction text with
  | nil => rfl
  | cons ch text ih => rw [List.flatMap_cons, hencode, ih]

end FormUrl
