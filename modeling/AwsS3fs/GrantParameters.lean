/-
**The parameters of a grant request.**

The permissions grant process runs with root privileges and takes its orders from an unprivileged
process, as strings such as `1000:1000:aB3dE5`.  Three routines of `grant.c` take such a string
apart: `GetIntParameter` and `GetFileParameter` read one parameter each and return how far they
got, and `VerifyFilename` decides whether a name that was read may be used.  This module models
the three and says what each accepts.

The routines are given a pointer into the request buffer and nothing else, so their argument here
is the memory from that pointer on: the parameters, the terminating `'\0'`, whatever an earlier
request has left behind it, and the stack beyond.  A routine that runs out of readable memory has
no result.

Main definitions:

* `AwsS3fs.Grant.getIntParameter`, `AwsS3fs.Grant.getFileParameter`,
  `AwsS3fs.Grant.verifyFilename` — the three routines;
* `AwsS3fs.Grant.IntField`, `AwsS3fs.Grant.FileField` — how memory splits into the parts a number
  or a name is read from;
* `AwsS3fs.Grant.Name` — a name of exactly six alphanumeric characters.

Main results:

* `AwsS3fs.Grant.getIntParameter_eq_some_iff`, `AwsS3fs.Grant.getFileParameter_eq_some_iff` —
  **what is read**: the result, and the position behind it, in terms of such a split;
* `AwsS3fs.Grant.verifyFilename_write` — of the names `GetFileParameter` can deliver, exactly
  those of six characters pass.
-/

import AwsS3fs.Lib.Bytes

set_option relaxedAutoImplicit false
set_option autoImplicit false

namespace AwsS3fs.Grant

open CLib

/-- `':'`, the separator of parameters. -/
def colon : UInt8 := 58

/-- `'/'`, the separator of a directory and a file in it. -/
def slash : UInt8 := 47

/-! ### Numbers -/

/-- What `GetIntParameter` steps over before a number. -/
def skipped (ch : UInt8) : Bool := ch != 0 && !isalnum ch

/-- What `GetFileParameter` steps over before a name. -/
def separator (ch : UInt8) : Bool := ch != 0 && (isspace ch || ispunct ch)

/-- The digit loop of `GetIntParameter`: the value, the number of digits, and the character that
ended them. -/
def readDigits (valueLength : ℕ) : ℤ → Bytes → Option (ℤ × ℕ × UInt8)
  | _, [] => none
  | toReturn, ch :: m =>
      -- `valueLength` is compared with 5 but never incremented
      if isdigit ch && decide (valueLength < 5) then
        (readDigits valueLength (wrapInt (toReturn * 10 + ((ch.toNat : ℤ) - 48))) m).map
          fun (v, n, c) => (v, n + 1, c)
      else some (toReturn, 0, ch)

/-- `GetIntParameter`: the number of bytes processed, which leaves the position *at* the character
that ended the number, and the number, `-1` if that character is neither `':'` nor `'\0'`. -/
def getIntParameter (parameterlist : Bytes) : Option (ℕ × ℤ) := do
  let skip ← scan skipped parameterlist
  let (toReturn, n, ch) ← readDigits 0 0 (parameterlist.drop skip)
  return (skip + n, if ch ≠ colon ∧ ch ≠ 0 then -1 else toReturn)

/-- The value the digit loop computes, truncated to `int` after every digit. -/
def intValue (ds : Bytes) : ℤ :=
  ds.foldl (fun v ch => wrapInt (v * 10 + ((ch.toNat : ℤ) - 48))) 0

/-- A number in memory: skipped bytes `j`, digits `ds`, and the character `c` that ends them. -/
structure IntField (m j ds : Bytes) (c : UInt8) (r : Bytes) : Prop where
  split : m = j ++ (ds ++ c :: r)
  skip : ∀ x ∈ j, skipped x = true
  digits : ∀ d ∈ ds, isdigit d = true
  stop : isdigit c = false
  first : ds = [] → skipped c = false

/-- The digit loop delivers the run of digits it starts at. -/
theorem readDigits_eq_some_iff {v₀ v : ℤ} {m : Bytes} {n : ℕ} {c : UInt8} :
    readDigits 0 v₀ m = some (v, n, c) ↔
      ∃ ds r, m = ds ++ c :: r ∧ (∀ d ∈ ds, isdigit d = true) ∧ isdigit c = false ∧
        n = ds.length ∧
        v = ds.foldl (fun v ch => wrapInt (v * 10 + ((ch.toNat : ℤ) - 48))) v₀ := by
  induction m generalizing v₀ v n with
  | nil => simp [readDigits]
  | cons ch m ih =>
      cases hd : isdigit ch with
      | false =>
          simp only [readDigits, hd, Bool.false_and, Bool.false_eq_true, if_false,
            Option.some_inj, Prod.mk.injEq]
          constructor
          · rintro ⟨rfl, rfl, rfl⟩
            exact ⟨[], m, by simp [hd]⟩
          · rintro ⟨ds, r, hm, hds, hc, rfl, rfl⟩
            cases ds with
            | nil =>
                obtain ⟨rfl, -⟩ := List.cons.inj hm
                simp
            | cons d ds =>
                obtain ⟨rfl, -⟩ := List.cons.inj hm
                simp [hd] at hds
      | true =>
          have h5 : decide (0 < 5) = true := rfl
          simp only [readDigits, hd, h5, Bool.and_self, if_true, Option.map_eq_some_iff]
          constructor
          · rintro ⟨⟨v', n', c'⟩, h, hv⟩
            simp only [Prod.mk.injEq] at hv
            obtain ⟨rfl, rfl, rfl⟩ := hv
            obtain ⟨ds, r, rfl, hds, hc, rfl, rfl⟩ := ih.1 h
            exact ⟨ch :: ds, r, by simp, by simpa [hd] using hds, hc, by simp, by simp⟩
          · rintro ⟨ds, r, hm, hds, hc, rfl, rfl⟩
            cases ds with
            | nil =>
                obtain ⟨rfl, -⟩ := List.cons.inj hm
                simp [hd] at hc
            | cons d ds =>
                obtain ⟨rfl, rfl⟩ := List.cons.inj hm
                exact ⟨(_, ds.length, c),
                  ih.2 ⟨ds, r, rfl, fun x hx => hds x (by simp [hx]), hc, rfl, rfl⟩, by simp⟩

/-- **What `GetIntParameter` reads.** -/
theorem getIntParameter_eq_some_iff {m : Bytes} {pos : ℕ} {v : ℤ} :
    getIntParameter m = some (pos, v) ↔
      ∃ j ds c r, IntField m j ds c r ∧ pos = j.length + ds.length ∧
        v = if c ≠ colon ∧ c ≠ 0 then -1 else intValue ds := by
  constructor
  · intro h
    simp only [getIntParameter, Option.bind_eq_bind, Option.bind_eq_some_iff, Option.pure_def,
      Option.some_inj, Prod.mk.injEq, Prod.exists] at h
    obtain ⟨skip, hs, t, n, ch, hr, rfl, rfl⟩ := h
    obtain ⟨j, c₀, r₀, rfl, rfl, hj, hc₀⟩ := scan_eq_some_iff.1 hs
    rw [List.drop_left] at hr
    obtain ⟨ds, r, hm, hds, hc, rfl, rfl⟩ := readDigits_eq_some_iff.1 hr
    refine ⟨j, ds, ch, r, ⟨by rw [hm], hj, hds, hc, ?_⟩, rfl, rfl⟩
    rintro rfl
    obtain ⟨rfl, -⟩ := List.cons.inj hm
    exact hc₀
  · rintro ⟨j, ds, c, r, ⟨rfl, hj, hds, hc, hfirst⟩, rfl, rfl⟩
    -- the scan stops at the first digit, or at the character behind the empty number
    have hs : scan skipped (j ++ (ds ++ c :: r)) = some j.length := by
      cases ds with
      | nil => exact scan_append _ hj (hfirst rfl)
      | cons d ds =>
          refine scan_append _ hj ?_
          simp [skipped, isalnum_of_isdigit (hds d (by simp))]
    have hr : readDigits 0 0 (ds ++ c :: r) = some (intValue ds, ds.length, c) :=
      readDigits_eq_some_iff.2 ⟨ds, r, rfl, hds, hc, rfl, rfl⟩
    simp only [getIntParameter, hs, Option.bind_eq_bind, Option.bind_some, List.drop_left, hr,
      Option.pure_def]

/-- Up to nine digits, no truncation takes place. -/
theorem intValue_eq_decimalValue {ds : Bytes} (hds : ∀ d ∈ ds, isdigit d = true)
    (hlen : ds.length ≤ 9) : intValue ds = decimalValue ds := by
  induction ds using List.reverseRecOn with
  | nil => rfl
  | append_singleton ds d ih =>
      have hd : 48 ≤ d.toNat := by
        have := hds d (by simp)
        simp only [isdigit, Bool.and_eq_true, decide_eq_true_eq, UInt8.le_iff_toNat_le] at this
        exact this.1
      have ih := ih (fun e he => hds e (by simp [he])) (by simp at hlen; omega)
      have hlt : decimalValue (ds ++ [d]) < 2 ^ 31 :=
        lt_of_lt_of_le (decimalValue_lt hds)
          (le_trans (Nat.pow_le_pow_right (by omega) hlen) (by omega))
      have hval : decimalValue (ds ++ [d]) = decimalValue ds * 10 + (d.toNat - 48) := by
        simp [decimalValue]
      have hint : intValue (ds ++ [d]) = wrapInt (intValue ds * 10 + ((d.toNat : ℤ) - 48)) := by
        simp [intValue]
      rw [hval] at hlt ⊢
      rw [hint, ih, wrapInt_of_lt (by omega) (by omega)]
      omega

/-! ### Names -/

/-- The copy loop of `GetFileParameter`, into `filename` from index `o` on: the array, the number
of characters stored, and the number of bytes read, one more than that. -/
def readName (o : ℕ) : CharArray → ℕ → Bytes → Option (CharArray × ℕ × ℕ)
  | _, _, [] => none
  | filename, filenamePos, ch :: m =>
      if ch != 0 && isalnum ch && decide (filenamePos < 6) then
        (readName o (Function.update filename (o + filenamePos) ch) (filenamePos + 1) m).map
          fun (f, k, n) => (f, k, n + 1)
      else some (filename, filenamePos, 1)

/-- `GetFileParameter`, storing the name in `filename` from index `o` on: the number of bytes
processed, which leaves the position *behind* the character that ended the name, and the array. -/
def getFileParameter (parameterlist : Bytes) (filename : CharArray) (o : ℕ) :
    Option (ℕ × CharArray) := do
  let skip ← scan separator parameterlist
  let (filename, filenamePos, n) ← readName o filename 0 (parameterlist.drop skip)
  return (skip + n, Function.update filename (o + filenamePos) 0)

/-- A name in memory: separators `p`, at most six alphanumerics `w`, and the character `c` behind
them, which is swallowed whatever it is. -/
structure FileField (m p w : Bytes) (c : UInt8) (r : Bytes) : Prop where
  split : m = p ++ (w ++ c :: r)
  seps : ∀ x ∈ p, separator x = true
  name : ∀ x ∈ w, isalnum x = true
  short : w.length ≤ 6
  stop : w.length = 6 ∨ isalnum c = false
  first : w = [] → separator c = false

/-- A separator is not alphanumeric. -/
theorem isalnum_of_separator {ch : UInt8} (h : separator ch = true) : isalnum ch = false := by
  simp only [separator, Bool.and_eq_true] at h
  exact isalnum_of_isspace_or_ispunct h.2

/-- An alphanumeric character is no separator. -/
theorem separator_of_isalnum {ch : UInt8} (h : isalnum ch = true) : separator ch = false := by
  cases hs : separator ch with
  | false => rfl
  | true => rw [isalnum_of_separator hs] at h; exact absurd h (by simp)

/-- The copy loop delivers the alphanumerics it starts at, up to the six of a full name. -/
theorem readName_eq_some_iff {o : ℕ} {buf buf' : CharArray} {k k' n : ℕ} {m : Bytes}
    (hk : k ≤ 6) :
    readName o buf k m = some (buf', k', n) ↔
      ∃ w c r, m = w ++ c :: r ∧ (∀ x ∈ w, isalnum x = true) ∧ k + w.length ≤ 6 ∧
        (k + w.length = 6 ∨ isalnum c = false) ∧ k' = k + w.length ∧ n = w.length + 1 ∧
        buf' = buf.write (o + k) w := by
  induction m generalizing buf k n with
  | nil => simp [readName]
  | cons ch m ih =>
      by_cases hgo : isalnum ch = true ∧ k < 6
      · -- one more character is stored
        have hne : (ch != 0) = true := by simpa using ne_zero_of_isalnum hgo.1
        simp only [readName, hne, hgo.1, hgo.2, decide_true, Bool.and_self, if_true,
          Option.map_eq_some_iff]
        constructor
        · rintro ⟨⟨f, i, l⟩, h, hv⟩
          simp only [Prod.mk.injEq] at hv
          obtain ⟨rfl, rfl, rfl⟩ := hv
          obtain ⟨w, c, r, rfl, hw, hle, hstop, rfl, rfl, rfl⟩ := (ih (by omega)).1 h
          refine ⟨ch :: w, c, r, by simp, by simpa [hgo.1] using hw, ?_, ?_, ?_, by simp, ?_⟩
          · simp only [List.length_cons]; omega
          · simp only [List.length_cons]; exact hstop.imp_left (by omega)
          · simp only [List.length_cons]; omega
          · rw [CharArray.write, Nat.add_assoc o k 1]
        · rintro ⟨w, c, r, hm, hw, hle, hstop, rfl, rfl, rfl⟩
          cases w with
          | nil =>
              obtain ⟨rfl, -⟩ := List.cons.inj hm
              rcases hstop with h | h
              · simp at h; omega
              · rw [hgo.1] at h; simp at h
          | cons d w =>
              obtain ⟨rfl, rfl⟩ := List.cons.inj hm
              simp only [List.length_cons] at hle hstop
              refine ⟨(_, _, w.length + 1), (ih (by omega)).2
                ⟨w, c, r, rfl, fun x hx => hw x (by simp [hx]), by omega, hstop.imp_left (by omega),
                  by simp only [List.length_cons]; omega, rfl, rfl⟩, rfl⟩
      · -- the loop ends here
        have hcond : (ch != 0 && isalnum ch && decide (k < 6)) = false := by
          by_contra h
          simp only [Bool.not_eq_false, Bool.and_eq_true, decide_eq_true_eq] at h
          exact hgo ⟨h.1.2, h.2⟩
        simp only [readName, hcond, Bool.false_eq_true, if_false, Option.some_inj, Prod.mk.injEq]
        constructor
        · rintro ⟨rfl, rfl, rfl⟩
          refine ⟨[], ch, m, rfl, by simp, by simpa using hk, ?_, by simp, by simp, rfl⟩
          by_cases h6 : k = 6
          · exact Or.inl (by simpa using h6)
          · refine Or.inr ?_
            by_contra h
            exact hgo ⟨by simpa using h, by omega⟩
        · rintro ⟨w, c, r, hm, hw, hle, hstop, rfl, rfl, rfl⟩
          cases w with
          | nil => exact ⟨rfl, rfl, rfl⟩
          | cons d w =>
              obtain ⟨rfl, -⟩ := List.cons.inj hm
              simp only [List.length_cons] at hle
              exact absurd ⟨hw ch (by simp), by omega⟩ hgo

/-- **What `GetFileParameter` reads.** -/
theorem getFileParameter_eq_some_iff {m : Bytes} {buf buf' : CharArray} {o pos : ℕ} :
    getFileParameter m buf o = some (pos, buf') ↔
      ∃ p w c r, FileField m p w c r ∧ pos = p.length + w.length + 1 ∧
        buf' = buf.write o (w ++ [0]) := by
  constructor
  · intro h
    simp only [getFileParameter, Option.bind_eq_bind, Option.bind_eq_some_iff, Option.pure_def,
      Option.some_inj, Prod.mk.injEq, Prod.exists] at h
    obtain ⟨skip, hs, f, k, n, hr, rfl, rfl⟩ := h
    obtain ⟨p, c₀, r₀, rfl, rfl, hp, hc₀⟩ := scan_eq_some_iff.1 hs
    rw [List.drop_left] at hr
    obtain ⟨w, c, r, hm, hw, hle, hstop, rfl, rfl, rfl⟩ := (readName_eq_some_iff (by omega)).1 hr
    refine ⟨p, w, c, r, ⟨by rw [hm], hp, hw, by omega, by simpa using hstop, ?_⟩,
      by omega, ?_⟩
    · rintro rfl
      obtain ⟨rfl, -⟩ := List.cons.inj hm
      exact hc₀
    · simp [CharArray.write_append, CharArray.write]
  · rintro ⟨p, w, c, r, ⟨rfl, hp, hw, hle, hstop, hfirst⟩, rfl, rfl⟩
    have hs : scan separator (p ++ (w ++ c :: r)) = some p.length := by
      cases w with
      | nil => exact scan_append _ hp (hfirst rfl)
      | cons d w => exact scan_append _ hp (separator_of_isalnum (hw d (by simp)))
    have hr : readName o buf 0 (w ++ c :: r) = some (buf.write o w, w.length, w.length + 1) :=
      (readName_eq_some_iff (by omega)).2
        ⟨w, c, r, rfl, hw, by omega, by simpa using hstop, by simp, rfl, rfl⟩
    simp only [getFileParameter, hs, Option.bind_eq_bind, Option.bind_some, List.drop_left, hr,
      Option.pure_def]
    simp [CharArray.write_append, CharArray.write, Nat.add_assoc]

/-! ### Verified names -/

/-- `VerifyFilename` on the array from index `o` on: six alphanumerics and a terminator. -/
def verifyFilename (filename : CharArray) (o : ℕ) : Bool :=
  (List.range 6).all (fun pos => isalnum (filename (o + pos))) && filename (o + 6) == 0

theorem verifyFilename_eq_true_iff {buf : CharArray} {o : ℕ} :
    verifyFilename buf o = true ↔
      (∀ pos < 6, isalnum (buf (o + pos)) = true) ∧ buf (o + 6) = 0 := by
  simp [verifyFilename]

/-- An array that holds a name of at most six characters passes exactly if the name has six: a
shorter name has its terminator among the six characters. -/
theorem verifyFilename_of_get {buf : CharArray} {o : ℕ} {w : Bytes}
    (hw : ∀ x ∈ w, isalnum x = true) (hle : w.length ≤ 6)
    (hget : ∀ pos < 6, pos ≤ w.length → buf (o + pos) = (w ++ [0])[pos]?.getD 0)
    (hend : w.length = 6 → buf (o + 6) = 0) :
    verifyFilename buf o = true ↔ w.length = 6 := by
  rw [verifyFilename_eq_true_iff]
  constructor
  · rintro ⟨halnum, -⟩
    by_contra hne
    have := halnum w.length (by omega)
    rw [hget _ (by omega) le_rfl] at this
    simp at this
  · intro h6
    refine ⟨fun pos hpos => ?_, hend h6⟩
    rw [hget pos hpos (by omega), List.getElem?_append_left (by omega),
      List.getElem?_eq_getElem (by omega)]
    exact hw _ (List.getElem_mem _)

/-- Of the names that `GetFileParameter` can deliver, exactly those of six characters pass. -/
theorem verifyFilename_write {buf : CharArray} {o : ℕ} {w : Bytes}
    (hw : ∀ x ∈ w, isalnum x = true) (hle : w.length ≤ 6) :
    verifyFilename (buf.write o (w ++ [0])) o = true ↔ w.length = 6 := by
  have hget : ∀ pos ≤ w.length, buf.write o (w ++ [0]) (o + pos) = (w ++ [0])[pos]?.getD 0 := by
    intro pos hpos
    rw [CharArray.write_get _ _ _ (by simp; omega), List.getElem?_eq_getElem (by simp; omega),
      Option.getD_some]
  refine verifyFilename_of_get hw hle (fun pos _ hpos => hget pos hpos) fun h6 => ?_
  rw [hget 6 (by omega), ← h6]
  simp

/-- A name of exactly six alphanumeric characters. -/
structure Name where
  /-- The characters. -/
  chars : Bytes
  length_eq : chars.length = 6
  alnum : ∀ x ∈ chars, isalnum x = true
  deriving DecidableEq

namespace Name

attribute [simp] Name.length_eq

/-- No character of a name is the terminator. -/
theorem ne_zero (n : Name) {x : UInt8} (hx : x ∈ n.chars) : x ≠ 0 :=
  ne_zero_of_isalnum (n.alnum x hx)

theorem ne_nil (n : Name) : n.chars ≠ [] := by
  intro h
  have := n.length_eq
  simp [h] at this

/-- A name is read from where it stands, whatever follows it. -/
theorem fileField (n : Name) {p : Bytes} (hp : ∀ x ∈ p, separator x = true) (c : UInt8)
    (r : Bytes) : FileField (p ++ (n.chars ++ c :: r)) p n.chars c r :=
  ⟨rfl, hp, n.alnum, by simp, Or.inl n.length_eq, fun h => absurd h n.ne_nil⟩

end Name

end AwsS3fs.Grant
