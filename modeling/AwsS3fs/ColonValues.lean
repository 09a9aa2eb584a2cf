/-
**Values with a colon.**

`SplitS3MountPath` (`decodecmdline.c`) splits a bucket from a path, and `ConfigSetKey` (`config.c`)
an access key from a secret key.  In front of a path a colon or white space may be escaped; in keys
there are no escapes, and white space is left out wherever it stands.

Main definitions:

* `AwsS3fs.BucketText` — a bucket the way it is written in front of a path;
* `AwsS3fs.extractKeyAt`, `AwsS3fs.configSetKeyAt` — `ExtractKey` and `ConfigSetKey` with the index
  that one hands to the other;
* `AwsS3fs.accessPart`, `AwsS3fs.secretPart` — the parts of a text with colons.

Main results:

* `AwsS3fs.splitS3MountPath_concat` — **a bucket and a path are split exactly**;
* `AwsS3fs.configSetKeyAt_eq` — the index stands for the rest of the text;
* `AwsS3fs.configSetKeyAt_parts` — **the keys do not depend on white space**.
-/

import AwsS3fs.CommandLine
import AwsS3fs.Lib.Escapes

set_option relaxedAutoImplicit false
set_option autoImplicit false

namespace AwsS3fs

open CLib

/-! ### A bucket and a path -/

/-- A bucket the way it is written in front of a path: what would end it is escaped with a
backslash, and it does not end inside an escape. -/
def BucketText (bucket : Bytes) : Prop :=
  Escapes.Plain isSeparator 92 bucket ∧ Even (Escapes.run 92 bucket)

instance (bucket : Bytes) : Decidable (BucketText bucket) :=
  inferInstanceAs (Decidable (_ ∧ _))

/-- The search for the end of the bucket is a scanner of escapes. -/
theorem splitBucket_eq_split (escaped : Bool) (s3Path : Bytes) :
    splitBucket escaped s3Path = Escapes.split isSeparator 92 escaped s3Path := by
  induction s3Path generalizing escaped with
  | nil => rfl
  | cons character s3Path ih => rw [splitBucket, Escapes.split, ih, Escapes.next]

section Split

variable {blanks bucket separators path : Bytes}

/-- A bucket does not begin with white space. -/
theorem BucketText.dropWhile_append (h : BucketText bucket) (hne : bucket ≠ []) (rest : Bytes) :
    (bucket ++ rest).dropWhile isspace = bucket ++ rest := by
  obtain ⟨ch, bucket, rfl⟩ := List.exists_cons_of_ne_nil hne
  have hspace : ¬ isspace ch = true := by
    intro hspace
    have hodd := h.1 [] ch bucket rfl (by rw [isSeparator, hspace, Bool.or_true])
    exact absurd hodd (by decide)
  rw [List.cons_append, List.dropWhile_cons_of_neg hspace]

/-- What is skipped in front of a path. -/
theorem dropWhile_separators (hseparators : ∀ ch ∈ separators, isSeparator ch = true)
    (hpath : ∀ ch ∈ path.head?, isSeparator ch = false) :
    (separators ++ path).dropWhile isSeparator = path := by
  rw [List.dropWhile_append_of_pos hseparators]
  cases path with
  | nil => rfl
  | cons ch path =>
      exact List.dropWhile_cons_of_neg (by rw [hpath ch rfl]; exact Bool.false_ne_true)

/-- What is left of the separators when the blanks in front of the bucket are skipped: all of them
if there is a bucket, and those from a colon on if there is none. -/
theorem exists_dropWhile_blanks (hblanks : ∀ ch ∈ blanks, isspace ch = true)
    (hbucket : BucketText bucket) (hseparators : ∀ ch ∈ separators, isSeparator ch = true)
    (hne : separators ≠ []) (hcolon : bucket = [] → 58 ∈ separators) (path : Bytes) :
    ∃ left : Bytes, left ≠ [] ∧ (∀ ch ∈ left, isSeparator ch = true) ∧
      (blanks ++ bucket ++ separators ++ path).dropWhile isspace = bucket ++ (left ++ path) := by
  rw [List.append_assoc, List.append_assoc, List.dropWhile_append_of_pos hblanks]
  by_cases hempty : bucket = []
  · obtain ⟨front, ch, left, rfl, hfront, hch⟩ :=
      exists_split (p := isspace) (hcolon hempty) (by decide)
    refine ⟨ch :: left, List.cons_ne_nil _ _,
      fun d hd => hseparators d (List.mem_append_right _ hd), ?_⟩
    rw [hempty, List.nil_append, List.nil_append, List.append_assoc,
      List.dropWhile_append_of_pos hfront, List.cons_append]
    exact List.dropWhile_cons_of_neg (by rw [hch]; exact Bool.false_ne_true)
  · exact ⟨separators, hne, hseparators, hbucket.dropWhile_append hempty _⟩

/-- **A bucket and a path are split exactly**, whatever blanks are in front of the bucket and
whatever colons and blanks are between it and the path. -/
theorem splitS3MountPath_concat (hblanks : ∀ ch ∈ blanks, isspace ch = true)
    (hbucket : BucketText bucket) (hseparators : ∀ ch ∈ separators, isSeparator ch = true)
    (hne : separators ≠ []) (hcolon : bucket = [] → 58 ∈ separators)
    (hpath : ∀ ch ∈ path.head?, isSeparator ch = false) :
    splitS3MountPath (blanks ++ bucket ++ separators ++ path) = (bucket, path) := by
  obtain ⟨left, hleft, hall, hdrop⟩ :=
    exists_dropWhile_blanks hblanks hbucket hseparators hne hcolon path
  have hhead : ∀ ch ∈ (left ++ path).head?, isSeparator ch = true := by
    obtain ⟨ch, left, rfl⟩ := List.exists_cons_of_ne_nil hleft
    rintro d ⟨⟩
    exact hall ch List.mem_cons_self
  rw [splitS3MountPath, hdrop, splitBucket_eq_split, Escapes.split_append hbucket.1 hbucket.2 hhead]
  exact congrArg (Prod.mk bucket) (dropWhile_separators hall hpath)

end Split

theorem splitS3MountPath_concat_escaped :
    splitS3MountPath (ascii " " ++ ascii "a\\:b\\\\" ++ ascii ": :" ++ ascii "/x y") =
      (ascii "a\\:b\\\\", ascii "/x y") :=
  splitS3MountPath_concat (by decide +kernel) (by decide) (by decide +kernel) (by decide)
    (by decide) (by decide +kernel)

/-! ### Keys, with their indices -/

/-- The first loop of `ExtractKey`, from `index` on: the characters that are copied, and the index
at which it ends. -/
def copyKey : ℕ → Bytes → Bytes × ℕ
  | index, [] => ([], index)
  | index, character :: configValue =>
      if isspace character then copyKey (index + 1) configValue
      else if character = 58 then ([], index)
      else
        let rest := copyKey (index + 1) configValue
        (character :: rest.1, rest.2)

/-- The second loop: the index at which it ends, and the character there, if the string does not end
there. -/
def skipSeparators : ℕ → Bytes → ℕ × Option UInt8
  | index, [] => (index, none)
  | index, character :: configValue =>
      if isspace character || character == 58 then skipSeparators (index + 1) configValue
      else (index, some character)

/-- `ExtractKey`: the key, and the position of the next key, or `0`. -/
def extractKeyAt (index : ℕ) (configValue : Bytes) : Bytes × ℕ :=
  let copied := copyKey index (configValue.drop index)
  let skipped := skipSeparators copied.2 (configValue.drop copied.2)
  (copied.1, if skipped.2 ≠ none then skipped.1 else 0)

/-- `ConfigSetKey`, with the index of the secret key. -/
def configSetKeyAt (configValue : Bytes) : KeyPair :=
  let access := extractKeyAt 0 configValue
  if access.2 ≠ 0 then ⟨access.1, (extractKeyAt access.2 configValue).1, false⟩
  else ⟨access.1, ascii "*", true⟩

/-! ### The index stands for the rest of the text -/

/-- What the first loop copies, and how far it goes. -/
theorem copyKey_eq (index : ℕ) (text : Bytes) :
    copyKey index text =
      ((extractKey text).1, index + (text.takeWhile (· != 58)).length) := by
  induction text generalizing index with
  | nil => rfl
  | cons character text ih =>
      rw [extractKey] at ih ⊢
      by_cases hcolon : character = 58
      · rw [hcolon]
        rfl
      · have htake : (character :: text).takeWhile (· != 58) =
            character :: text.takeWhile (· != 58) :=
          List.takeWhile_cons_of_pos (bne_iff_ne.2 hcolon)
        rw [htake, copyKey, ih, List.length_cons, Nat.add_assoc, Nat.add_comm 1]
        by_cases hspace : isspace character = true
        · rw [if_pos hspace, List.filter_cons_of_neg (by rw [hspace]; decide)]
        · rw [if_neg hspace, if_neg hcolon, List.filter_cons_of_pos (by simpa using hspace)]

/-- How far the second loop goes, and what it finds there. -/
theorem skipSeparators_eq (index : ℕ) (text : Bytes) :
    skipSeparators index text =
      (index + (text.takeWhile isSeparator).length, (text.dropWhile isSeparator).head?) := by
  induction text generalizing index with
  | nil => rfl
  | cons character text ih =>
      have hseparator : (isspace character || character == 58) = isSeparator character :=
        Bool.or_comm _ _
      rw [skipSeparators, hseparator]
      by_cases h : isSeparator character = true
      · rw [if_pos h, ih, List.takeWhile_cons_of_pos h, List.dropWhile_cons_of_pos h,
          List.length_cons, Nat.add_assoc, Nat.add_comm 1]
      · rw [if_neg h, List.takeWhile_cons_of_neg h, List.dropWhile_cons_of_neg h]
        rfl

/-- What is between a key and the text behind it. -/
def betweenKeys (text : Bytes) : Bytes := (text.dropWhile (· != 58)).takeWhile isSeparator

/-- A text is a key, what is behind it, and the text of the next key. -/
theorem extractKey_parts (text : Bytes) :
    text.takeWhile (· != 58) ++ betweenKeys text ++ (extractKey text).2 = text := by
  rw [betweenKeys, extractKey, List.append_assoc, List.takeWhile_append_dropWhile,
    List.takeWhile_append_dropWhile]

/-- There is a colon in front of the next key. -/
theorem betweenKeys_ne_nil {text : Bytes} (h : (extractKey text).2 ≠ []) :
    betweenKeys text ≠ [] := by
  rw [extractKey] at h
  rw [betweenKeys]
  cases hrest : text.dropWhile (· != 58) with
  | nil =>
      rw [hrest] at h
      exact absurd rfl h
  | cons ch rest =>
      obtain rfl : ch = 58 := by simpa using not_of_dropWhile_eq_cons hrest
      exact List.cons_ne_nil _ _

/-- What `ExtractKey` returns for a text that begins at an index. -/
theorem extractKeyAt_append (before text : Bytes) :
    extractKeyAt before.length (before ++ text) =
      ((extractKey text).1,
        if (extractKey text).2 ≠ [] then
          (before ++ (text.takeWhile (· != 58) ++ betweenKeys text)).length
        else 0) := by
  have hsplit : before ++ text =
      before ++ text.takeWhile (· != 58) ++ text.dropWhile (· != 58) := by
    rw [List.append_assoc, List.takeWhile_append_dropWhile]
  have hkey : (before ++ text).drop (before.length + (text.takeWhile (· != 58)).length) =
      text.dropWhile (· != 58) := by
    rw [hsplit, ← List.length_append, List.drop_left]
  have hnext : ((text.dropWhile (· != 58)).dropWhile isSeparator).head? ≠ none ↔
      (extractKey text).2 ≠ [] := by
    rw [Ne, List.head?_eq_none_iff]
    rfl
  simp only [extractKeyAt, List.drop_left, copyKey_eq, hkey, skipSeparators_eq, hnext]
  rw [List.length_append, List.length_append, ← Nat.add_assoc]
  rfl

/-- **The index stands for the rest of the text.** -/
theorem configSetKeyAt_eq (configValue : Bytes) :
    configSetKeyAt configValue = configSetKey configValue := by
  have hfirst := extractKeyAt_append [] configValue
  rw [List.length_nil, List.nil_append, List.nil_append] at hfirst
  rw [configSetKeyAt, configSetKey, hfirst]
  by_cases hnext : (extractKey configValue).2 = []
  · simp only [hnext, ne_eq, not_true_eq_false, if_false]
    rfl
  · have hindex : (configValue.takeWhile (· != 58) ++ betweenKeys configValue).length ≠ 0 := by
      rw [List.length_append, ← Nat.pos_iff_ne_zero]
      exact Nat.add_pos_right _ (List.length_pos_of_ne_nil (betweenKeys_ne_nil hnext))
    have hsecond := extractKeyAt_append
      (configValue.takeWhile (· != 58) ++ betweenKeys configValue) (extractKey configValue).2
    rw [extractKey_parts] at hsecond
    simp only [ne_eq, hnext, not_false_eq_true, if_true, hindex, hsecond]

/-! ### Keys and white space -/

/-- The part of a text in front of the first colon. -/
def accessPart (text : Bytes) : Bytes := text.takeWhile (· != 58)

/-- What follows the part in front of the first colon. -/
def behindAccess (text : Bytes) : Bytes := text.dropWhile (· != 58)

/-- The part behind the first run of colons, up to the next colon. -/
def secretPart (text : Bytes) : Bytes := accessPart ((behindAccess text).dropWhile (· == 58))

/-- A text without its white space. -/
def withoutSpace (text : Bytes) : Bytes := text.filter (!isspace ·)

/-- Nothing but colons follows the access part. -/
def NoSecretKey (text : Bytes) : Prop := ∀ ch ∈ behindAccess text, ch = 58

/-- The keys are the parts of the text without white space, whether or not there is a secret key. -/
def KeysAreParts (configValue : Bytes) : Prop :=
  configSetKeyAt configValue = configSetKeyAt (withoutSpace configValue) ∧
  (configSetKeyAt configValue).keyId = accessPart (withoutSpace configValue) ∧
  (configSetKeyAt configValue).secretKey = secretPart (withoutSpace configValue) ∧
  ((configSetKeyAt configValue).configError = true ↔ NoSecretKey (withoutSpace configValue))

section Space

variable (text : Bytes)

theorem withoutSpace_withoutSpace : withoutSpace (withoutSpace text) = withoutSpace text := by
  rw [withoutSpace, withoutSpace, List.filter_filter]
  simp only [Bool.and_self]

/-- White space is no colon. -/
theorem isspace_or_ne_colon (ch : UInt8) : (!!isspace ch || ch != 58) = (ch != 58) := by
  by_cases h : ch = 58
  · rw [h]
    rfl
  · rw [bne_iff_ne.2 h, Bool.or_true]

/-- A key is the access part, less its white space. -/
theorem extractKey_fst : (extractKey text).1 = accessPart (withoutSpace text) := by
  rw [extractKey, accessPart, withoutSpace, List.takeWhile_filter]
  simp only [isspace_or_ne_colon]

/-- Between the keys, white space is the same as a colon. -/
theorem withoutSpace_extractKey_snd :
    withoutSpace (extractKey text).2 = (behindAccess (withoutSpace text)).dropWhile (· == 58) := by
  have hseparator : ∀ ch, (!!isspace ch || ch == 58) = isSeparator ch := fun ch => by
    rw [Bool.not_not, isSeparator, Bool.or_comm]
  rw [extractKey, behindAccess, withoutSpace, withoutSpace, List.dropWhile_filter]
  simp only [isspace_or_ne_colon]
  rw [List.dropWhile_filter]
  simp only [hseparator]

/-- White space is no secret key. -/
theorem extractKey_snd_eq_nil_iff :
    (extractKey text).2 = [] ↔ NoSecretKey (withoutSpace text) := by
  have hnil : (extractKey text).2 = [] ↔ withoutSpace (extractKey text).2 = [] := by
    refine ⟨fun h => by rw [h]; rfl, fun h => ?_⟩
    cases hnext : (extractKey text).2 with
    | nil => rfl
    | cons ch next =>
        -- the next key begins with a character that is neither a colon nor white space
        have hhead : isSeparator ch = false := by
          have hrest : (text.dropWhile (· != 58)).dropWhile isSeparator = ch :: next := hnext
          exact not_of_dropWhile_eq_cons hrest
        rw [isSeparator, Bool.or_eq_false_iff] at hhead
        rw [hnext, withoutSpace, List.filter_cons_of_pos (by rw [hhead.2]; rfl)] at h
        exact absurd h (List.cons_ne_nil _ _)
  rw [hnil, withoutSpace_extractKey_snd, List.dropWhile_eq_nil_iff, NoSecretKey]
  simp only [beq_iff_eq]

end Space

/-- The keys of a text that has a secret key. -/
theorem configSetKeyAt_of_secretKey {configValue : Bytes}
    (h : ¬ NoSecretKey (withoutSpace configValue)) :
    configSetKeyAt configValue =
      ⟨accessPart (withoutSpace configValue), secretPart (withoutSpace configValue), false⟩ := by
  have hnext := mt (extractKey_snd_eq_nil_iff configValue).1 h
  rw [configSetKeyAt_eq, configSetKey, if_pos hnext, extractKey_fst, extractKey_fst,
    withoutSpace_extractKey_snd, secretPart]

/-- The keys of a text that has none. -/
theorem configSetKeyAt_of_noSecretKey {configValue : Bytes}
    (h : NoSecretKey (withoutSpace configValue)) :
    configSetKeyAt configValue = ⟨accessPart (withoutSpace configValue), ascii "*", true⟩ := by
  have hnext := (extractKey_snd_eq_nil_iff configValue).2 h
  rw [configSetKeyAt_eq, configSetKey, if_neg (not_not.2 hnext), extractKey_fst]
  rfl

/-- **The keys do not depend on white space**: they are the parts of the text without it, except
that an invalid secret key takes the place of one that is missing, which is an error. -/
theorem configSetKeyAt_parts (configValue : Bytes) :
    configSetKeyAt configValue = configSetKeyAt (withoutSpace configValue) ∧
    (configSetKeyAt configValue).keyId = accessPart (withoutSpace configValue) ∧
    (configSetKeyAt configValue).secretKey =
      (if (configSetKeyAt configValue).configError then ascii "*"
      else secretPart (withoutSpace configValue)) ∧
    ((configSetKeyAt configValue).configError = true ↔ NoSecretKey (withoutSpace configValue)) := by
  have hagain := withoutSpace_withoutSpace configValue
  by_cases h : NoSecretKey (withoutSpace configValue)
  · rw [configSetKeyAt_of_noSecretKey h, configSetKeyAt_of_noSecretKey (hagain.symm ▸ h), hagain]
    exact ⟨rfl, rfl, rfl, iff_of_true rfl h⟩
  · rw [configSetKeyAt_of_secretKey h, configSetKeyAt_of_secretKey (hagain.symm ▸ h), hagain]
    exact ⟨rfl, rfl, rfl, iff_of_false Bool.false_ne_true h⟩

/-- Without a secret key the text has an empty part in its place, which is not what is stored. -/
theorem not_keysAreParts_key : ¬ KeysAreParts (ascii "key:") := by
  rintro ⟨-, -, hsecret, -⟩
  exact absurd hsecret (by decide)

end AwsS3fs
