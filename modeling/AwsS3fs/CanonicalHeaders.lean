/-
**The headers that are signed.**

Version 2 of the signatures has a canonical form for the headers of Amazon: a line for every name,
in lower case, with the values of all headers of that name joined by commas, and the lines in the
order of the names.  What `CreateAwsSignature` (`s3comms.c`) signs are the headers themselves, in
the order in which `BuildS3Request` has sorted them, which is that of `strcasecmp` on names and
values together; and no more than the first hundred of them.

Main definitions:

* `AwsS3fs.HeaderLine` — a header with its name and its value;
* `AwsS3fs.signedAmzHeaders` — the part of the message that is signed;
* `AwsS3fs.canonicalAmzHeaders` — **the canonical form**;
* `AwsS3fs.SignsCanonically` — headers that are in that form without more ado.

Main results:

* `AwsS3fs.exists_sorted_signedAmzHeaders` — the lines that are signed;
* `AwsS3fs.key_le_of_text_le` — when the order of the headers is that of their names;
* `AwsS3fs.signedAmzHeaders_eq_iff` — **when the canonical form is signed**.
-/

import AwsS3fs.RequestHeaders
import Mathlib.Data.List.Dedup
import Mathlib.Data.List.Pairwise
import Mathlib.Data.Set.List

set_option relaxedAutoImplicit false
set_option autoImplicit false

namespace AwsS3fs

open CLib

/-! ### Headers -/

/-- A header: a name of visible characters other than the colon, and a value without line breaks. -/
structure HeaderLine where
  name : Bytes
  value : Bytes
  visible : ∀ ch ∈ name, 33 ≤ ch ∧ ch ≤ 126 ∧ ch ≠ 58
  unbroken : ∀ ch ∈ value, ch ≠ 10 ∧ ch ≠ 13

namespace HeaderLine

/-- The header as `BuildS3Request` is given it. -/
def text (h : HeaderLine) : Bytes := h.name ++ 58 :: h.value

/-- The name in lower case. -/
def key (h : HeaderLine) : Bytes := h.name.map tolower

/-- A header of Amazon. -/
def isAmz (h : HeaderLine) : Bool := (ascii "x-amz-").isPrefixOf h.key

/-- The value without the white space in front of it. -/
def trimmedValue (h : HeaderLine) : Bytes := h.value.dropWhile isspace

/-- The line that `CreateAwsSignature` makes of a header of Amazon. -/
def line (h : HeaderLine) : Bytes := h.key ++ 58 :: h.value

end HeaderLine

/-- The part with the headers of Amazon in the message that `CreateAwsSignature` signs. -/
def signedAmzHeaders (qsort : List Bytes → List Bytes) (date : Bytes) (s3 : S3Comm)
    (httpMethod hostname filename : Bytes) (headers : List HeaderLine) : Bytes :=
  (createAwsSignature httpMethod (requestHeaders qsort date hostname (headers.map (·.text)))
    s3.region s3.bucket filename).amzHeaders

/-- The values of the headers of a name, joined by commas. -/
def joinedValues (headers : List HeaderLine) (key : Bytes) : Bytes :=
  [44].intercalate ((headers.filter (·.key == key)).map (·.trimmedValue))

/-- The line of a name. -/
def canonicalLine (headers : List HeaderLine) (key : Bytes) : Bytes :=
  key ++ 58 :: joinedValues headers key

/-- The names of the headers of Amazon, each of them once, in their order. -/
def canonicalKeys (headers : List HeaderLine) : List Bytes :=
  ((headers.filter (·.isAmz)).map (·.key)).dedup.insertionSort (· ≤ ·)

/-- **The canonical form** of the headers of Amazon. -/
def canonicalAmzHeaders (headers : List HeaderLine) : Bytes :=
  (canonicalKeys headers).flatMap fun key => canonicalLine headers key ++ [10]

/-- **Headers that are signed in the canonical form**: those of Amazon are among the first hundred,
no name is there twice, no value begins with white space, and where a name continues another one it
does so with a character behind the colon. -/
structure SignsCanonically (headers : List HeaderLine) : Prop where
  within : ∀ h ∈ headers.drop 100, h.isAmz = false
  distinct : ((headers.filter (·.isAmz)).map (·.key)).Nodup
  trimmed : ∀ h ∈ headers, h.isAmz = true → ∀ ch ∈ h.value.head?, isspace ch = false
  ordered : ∀ h ∈ headers, ∀ h' ∈ headers, h.isAmz = true → h'.isAmz = true →
    ∀ ch rest, h'.key = h.key ++ ch :: rest → 58 < ch

/-! ### One header -/

namespace HeaderLine

theorem ge_of_mem_key {h : HeaderLine} {ch : UInt8} (hch : ch ∈ h.key) : 33 ≤ ch ∧ ch ≠ 58 := by
  obtain ⟨c, hc, rfl⟩ := List.mem_map.1 hch
  obtain ⟨hge, hle, hne⟩ := h.visible c hc
  rw [tolower]
  split
  · next hupper =>
    simp only [Bool.and_eq_true, decide_eq_true_eq, UInt8.le_iff_toNat_le,
      UInt8.reduceToNat] at hupper
    rw [UInt8.le_iff_toNat_le, ne_eq, ← UInt8.toNat_inj, UInt8.toNat_add]
    simp only [UInt8.reduceToNat]
    omega
  · exact ⟨hge, hne⟩

theorem ne_of_mem_key {h : HeaderLine} {ch : UInt8} (hch : ch ∈ h.key) : (ch != 58) = true :=
  bne_iff_ne.2 (ge_of_mem_key hch).2

theorem newline_notMem_key (h : HeaderLine) : 10 ∉ h.key :=
  fun hmem => absurd (ge_of_mem_key hmem).1 (by decide)

theorem newline_notMem_line (h : HeaderLine) : 10 ∉ h.line := by
  rw [line, List.mem_append, List.mem_cons, not_or, not_or]
  exact ⟨h.newline_notMem_key, by decide, fun hmem => (h.unbroken 10 hmem).1 rfl⟩

/-- A text is split at its first colon. -/
theorem line_inj {h : HeaderLine} {k v : Bytes} (hk : ∀ ch ∈ k, (ch != 58) = true)
    (heq : h.line = k ++ 58 :: v) : h.key = k ∧ h.value = v := by
  obtain ⟨hkey, -, hvalue⟩ :=
    append_cons_inj (fun _ => ne_of_mem_key) hk (by decide) (by decide) heq
  exact ⟨hkey, hvalue⟩

theorem text_injective : Function.Injective text := by
  intro h h' heq
  have hname : ∀ h : HeaderLine, ∀ ch ∈ h.name, (ch != 58) = true :=
    fun h ch hch => bne_iff_ne.2 (h.visible ch hch).2.2
  obtain ⟨hname, -, hvalue⟩ := append_cons_inj (hname h) (hname h') (by decide) (by decide) heq
  cases h
  cases h'
  cases hname
  cases hvalue
  rfl

theorem map_tolower_text (h : HeaderLine) :
    h.text.map tolower = h.key ++ 58 :: h.value.map tolower := by
  rw [text, List.map_append, List.map_cons]
  rfl

/-- What `CreateAwsSignature` makes of the text of a header. -/
theorem lowerKey_text (h : HeaderLine) : lowerKey h.text = h.line := by
  have hname : ∀ ch ∈ h.name, decide (ch ≠ 58) = true :=
    fun ch hch => decide_eq_true (h.visible ch hch).2.2
  rw [lowerKey, text, List.takeWhile_append_of_pos hname, List.dropWhile_append_of_pos hname]
  simp [line, key]

/-- The test of `CreateAwsSignature` sees the name only. -/
theorem beginsWith_text (h : HeaderLine) : beginsWith (ascii "x-amz-") h.text = h.isAmz := by
  have hlower : (ascii "x-amz-").map tolower = ascii "x-amz-" := by decide +kernel
  rw [beginsWith, isAmz, List.map_take, map_tolower_text, hlower, Bool.eq_iff_iff, beq_iff_eq,
    List.isPrefixOf_iff_prefix, eq_comm, ← List.prefix_iff_eq_take]
  constructor
  · intro hword
    rcases Nat.lt_or_ge h.key.length (ascii "x-amz-").length with hlt | hge
    · -- the word would have a colon
      have hcolon : h.key ++ [58] <+: ascii "x-amz-" := by
        refine List.prefix_of_prefix_length_le ?_ hword ?_
        · exact ⟨h.value.map tolower, by rw [List.append_assoc, List.singleton_append]⟩
        · rw [List.length_append]
          exact hlt
      have hmem : (58 : UInt8) ∈ ascii "x-amz-" :=
        hcolon.subset (List.mem_append_right _ List.mem_cons_self)
      exact absurd hmem (by decide +kernel)
    · exact List.prefix_of_prefix_length_le hword (List.prefix_append _ _) hge
  · exact fun hkey => hkey.trans (List.prefix_append _ _)

end HeaderLine

/-! ### The lines that are signed -/

/-- The part of the headers of Amazon: their lines in the order of the headers. -/
theorem amzHeaders_createAwsSignature (httpMethod : Bytes) (headers : List Bytes)
    (region : BucketRegion) (bucket path : Bytes) :
    (createAwsSignature httpMethod headers region bucket path).amzHeaders =
      ((headers.filter (beginsWith (ascii "x-amz-"))).map lowerKey).flatMap fun line =>
        line ++ [10] := by
  have hfold : ∀ m : SignedMessage, (headers.foldl SignedMessage.addHeader m).amzHeaders =
      m.amzHeaders ++ ((headers.filter (beginsWith (ascii "x-amz-"))).map lowerKey).flatMap
        fun line => line ++ [10] := by
    induction headers with
    | nil => simp
    | cons header headers ih =>
        intro m
        rw [List.foldl_cons, ih, SignedMessage.addHeader, List.filter_cons]
        by_cases hamz : beginsWith (ascii "x-amz-") header = true
        · rw [if_pos hamz, if_pos hamz, List.map_cons, List.flatMap_cons, List.append_assoc]
        · rw [if_neg hamz, if_neg hamz]
          split
          · rfl
          · split
            · rfl
            · split <;> rfl
  exact hfold _

/-- **The lines that are signed**: those of the headers of Amazon among the first hundred, in the
order of the texts of the headers. -/
theorem exists_sorted_signedAmzHeaders {qsort : List Bytes → List Bytes} (hsort : Sorts qsort)
    (date : Bytes) (s3 : S3Comm) (httpMethod hostname filename : Bytes)
    (headers : List HeaderLine) :
    ∃ sorted : List HeaderLine, sorted.Perm ((headers.take 100).filter (·.isAmz)) ∧
      sorted.Pairwise (fun h h' => qsortStrcmp h.text h'.text) ∧
      signedAmzHeaders qsort date s3 httpMethod hostname filename headers =
        (sorted.map (·.line)).flatMap fun line => line ++ [10] := by
  have hperm := hsort.perm ((headers.map (·.text)).take 100)
  rw [← List.map_take] at hperm
  obtain ⟨all, hall⟩ : qsort ((headers.take 100).map (·.text)) ∈
      Set.range (List.map HeaderLine.text) := by
    rw [Set.range_list_map]
    intro text htext
    obtain ⟨h, -, rfl⟩ := List.mem_map.1 (hperm.mem_iff.1 htext)
    exact ⟨h, rfl⟩
  rw [← hall, List.map_perm_map_iff HeaderLine.text_injective] at hperm
  have hsorted := hsort.sorted ((headers.take 100).map (·.text))
  rw [← hall, List.pairwise_map] at hsorted
  refine ⟨all.filter (·.isAmz), hperm.filter _, hsorted.filter _, ?_⟩
  have hgeneric : (buildGenericHeader date hostname).filter (beginsWith (ascii "x-amz-")) = [] := by
    rw [List.filter_eq_nil_iff]
    intro header hheader
    rw [not_amz_buildGenericHeader hheader]
    exact Bool.false_ne_true
  have htest : beginsWith (ascii "x-amz-") ∘ HeaderLine.text = HeaderLine.isAmz :=
    funext HeaderLine.beginsWith_text
  have hline : lowerKey ∘ HeaderLine.text = HeaderLine.line := funext HeaderLine.lowerKey_text
  rw [signedAmzHeaders, amzHeaders_createAwsSignature, requestHeaders, List.filter_append, hgeneric,
    List.nil_append, ← List.map_take, ← hall, List.filter_map, htest, List.map_map, hline]

/-! ### The order of the names -/

/-- **When the order of the headers is that of their names**: where the first name continues the
second one, it does so behind the colon. -/
theorem key_le_of_text_le {k k' v v' : Bytes} (hbehind : ∀ ch rest, k = k' ++ ch :: rest → 58 < ch)
    (hle : k ++ 58 :: v ≤ k' ++ 58 :: v') : k ≤ k' := by
  induction k generalizing k' with
  | nil => exact List.nil_le k'
  | cons c k ih =>
      cases k' with
      | nil =>
          have hcolon : 58 < c := hbehind c k rfl
          rw [List.cons_append, List.nil_append, List.cons_le_cons_iff] at hle
          rcases hle with hlt | ⟨rfl, -⟩
          · exact absurd (UInt8.lt_trans hcolon hlt) (UInt8.lt_irrefl 58)
          · exact absurd hcolon (UInt8.lt_irrefl 58)
      | cons c' k' =>
          rw [List.cons_append, List.cons_append, List.cons_le_cons_iff] at hle
          rw [List.cons_le_cons_iff]
          refine hle.imp_right fun ⟨hc, hrest⟩ => ⟨hc, ih (fun ch rest heq => ?_) hrest⟩
          exact hbehind ch rest (by rw [hc, heq, List.cons_append])

/-- A header with a name that continues another one comes behind it only behind the colon. -/
theorem colon_le_of_text_le {k v v' : Bytes} {ch : UInt8} {rest : Bytes}
    (hle : k ++ 58 :: v ≤ k ++ ch :: rest ++ 58 :: v') : 58 ≤ ch := by
  induction k with
  | nil =>
      rw [List.nil_append, List.nil_append, List.cons_append, List.cons_le_cons_iff] at hle
      rcases hle with hlt | ⟨rfl, -⟩
      · exact UInt8.le_of_lt hlt
      · exact UInt8.le_refl 58
  | cons c k ih =>
      rw [List.cons_append, List.cons_append, List.cons_append, List.cons_le_cons_iff] at hle
      rcases hle with hlt | ⟨-, hrest⟩
      · exact absurd hlt (UInt8.lt_irrefl c)
      · exact ih hrest

/-! ### The values of a name -/

theorem isspace_head?_trimmedValue (h : HeaderLine) :
    ∀ ch ∈ h.trimmedValue.head?, isspace ch = false := by
  intro ch hch
  rw [HeaderLine.trimmedValue] at hch
  exact not_of_mem_head?_dropWhile hch

theorem trimmedValue_eq_self {h : HeaderLine} (hhead : ∀ ch ∈ h.value.head?, isspace ch = false) :
    h.trimmedValue = h.value := by
  rw [HeaderLine.trimmedValue]
  cases hvalue : h.value with
  | nil => rfl
  | cons ch value =>
      have hch : isspace ch = false := hhead ch (by rw [hvalue]; rfl)
      rw [List.dropWhile_cons_of_neg (by simp [hch])]

/-- What is joined by commas begins with no white space if none of the parts does. -/
theorem isspace_head?_intercalate {values : List Bytes}
    (h : ∀ value ∈ values, ∀ ch ∈ value.head?, isspace ch = false) :
    ∀ ch ∈ ([44].intercalate values).head?, isspace ch = false := by
  cases values with
  | nil => simp
  | cons value values =>
      have hvalue := h value List.mem_cons_self
      cases values with
      | nil => rwa [List.intercalate_singleton]
      | cons next values =>
          rw [List.intercalate_cons_cons]
          cases value with
          | nil => simp [isspace]
          | cons c value =>
              intro ch hch
              exact hvalue ch hch

/-- Parts are not longer than the whole. -/
theorem length_le_intercalate {values : List Bytes} {value : Bytes} (h : value ∈ values) :
    value.length ≤ ([44].intercalate values).length := by
  induction values with
  | nil => cases h
  | cons first values ih =>
      cases values with
      | nil =>
          rw [List.mem_singleton.1 h, List.intercalate_singleton]
      | cons next values =>
          rw [List.intercalate_cons_cons, List.length_append, List.length_append]
          rcases List.mem_cons.1 h with rfl | h
          · omega
          · have hrest := ih h
            omega

/-- A part that is as long as the whole is the only one. -/
theorem eq_singleton_of_intercalate {values : List Bytes} {value : Bytes} (h : value ∈ values)
    (heq : [44].intercalate values = value) : values = [value] := by
  cases values with
  | nil => cases h
  | cons first values =>
      cases values with
      | nil => rw [List.mem_singleton.1 h]
      | cons next values =>
          have hlength := congrArg List.length heq
          rw [List.intercalate_cons_cons, List.length_append, List.length_append,
            List.length_singleton] at hlength
          rcases List.mem_cons.1 h with rfl | h
          · omega
          · have hrest := length_le_intercalate h
            omega

/-- **A line that is canonical** is that of the only header of its name, and its value does not
begin with white space. -/
theorem filter_key_of_line_eq {headers : List HeaderLine} {h : HeaderLine} (hmem : h ∈ headers)
    (heq : h.line = canonicalLine headers h.key) :
    headers.filter (·.key == h.key) = [h] ∧ ∀ ch ∈ h.value.head?, isspace ch = false := by
  have hvalue : h.value = joinedValues headers h.key :=
    (HeaderLine.line_inj (fun _ => HeaderLine.ne_of_mem_key) heq).2
  have hhead : ∀ ch ∈ h.value.head?, isspace ch = false := by
    rw [hvalue]
    refine isspace_head?_intercalate fun value hmem => ?_
    obtain ⟨h', -, rfl⟩ := List.mem_map.1 hmem
    exact isspace_head?_trimmedValue h'
  have hmem' : h ∈ headers.filter (·.key == h.key) := by
    rw [List.mem_filter]
    exact ⟨hmem, beq_self_eq_true _⟩
  have hpart : h.value ∈ (headers.filter (·.key == h.key)).map (·.trimmedValue) :=
    List.mem_map.2 ⟨h, hmem', trimmedValue_eq_self hhead⟩
  have hone := eq_singleton_of_intercalate hpart hvalue.symm
  obtain ⟨h', hsingle, -⟩ := List.map_eq_singleton_iff.1 hone
  rw [hsingle] at hmem'
  exact ⟨by rw [hsingle, List.mem_singleton.1 hmem'], hhead⟩

/-- The canonical line of a header that is the only one of its name. -/
theorem canonicalLine_eq {headers : List HeaderLine} {h : HeaderLine}
    (honly : headers.filter (·.key == h.key) = [h])
    (hhead : ∀ ch ∈ h.value.head?, isspace ch = false) : canonicalLine headers h.key = h.line := by
  rw [canonicalLine, joinedValues, honly, List.map_singleton, List.intercalate_singleton,
    trimmedValue_eq_self hhead]
  rfl

theorem newline_notMem_intercalate {values : List Bytes} (h : ∀ value ∈ values, 10 ∉ value) :
    10 ∉ [44].intercalate values := by
  induction values with
  | nil => exact List.not_mem_nil
  | cons value values ih =>
      have hvalue := h value List.mem_cons_self
      have hvalues := ih fun v hv => h v (List.mem_cons_of_mem _ hv)
      cases values with
      | nil => rwa [List.intercalate_singleton]
      | cons next values =>
          rw [List.intercalate_cons_cons, List.mem_append, List.mem_append, not_or, not_or]
          exact ⟨⟨hvalue, by decide⟩, hvalues⟩

theorem newline_notMem_joinedValues (headers : List HeaderLine) (key : Bytes) :
    10 ∉ joinedValues headers key := by
  refine newline_notMem_intercalate fun value hvalue => ?_
  obtain ⟨h, -, rfl⟩ := List.mem_map.1 hvalue
  exact fun hmem => (h.unbroken 10 ((List.dropWhile_suffix _).subset hmem)).1 rfl

/-! ### The canonical form -/

theorem mem_canonicalKeys_iff {headers : List HeaderLine} {key : Bytes} :
    key ∈ canonicalKeys headers ↔ ∃ h ∈ headers, h.isAmz = true ∧ h.key = key := by
  simp [canonicalKeys, List.mem_insertionSort, List.mem_dedup, and_assoc]

theorem pairwise_canonicalKeys (headers : List HeaderLine) :
    (canonicalKeys headers).Pairwise (· ≤ ·) :=
  List.pairwise_insertionSort _ _

theorem nodup_canonicalKeys (headers : List HeaderLine) : (canonicalKeys headers).Nodup :=
  (List.perm_insertionSort _ _).nodup_iff.2 (List.nodup_dedup _)

variable {headers sorted : List HeaderLine}

/-- The signed lines are the canonical ones just if they are the same lists. -/
theorem lines_eq_iff :
    ((sorted.map (·.line)).flatMap fun line => line ++ [10]) = canonicalAmzHeaders headers ↔
      sorted.map (·.line) = (canonicalKeys headers).map (canonicalLine headers) := by
  have hcanonical : canonicalAmzHeaders headers =
      ((canonicalKeys headers).map (canonicalLine headers)).flatMap fun line => line ++ [10] := by
    rw [List.flatMap_map]
    rfl
  rw [hcanonical]
  refine ⟨fun heq => lines_injective ?_ ?_ heq, fun heq => by rw [heq]⟩
  · intro line hline
    obtain ⟨h, -, rfl⟩ := List.mem_map.1 hline
    exact h.newline_notMem_line
  · intro line hline
    obtain ⟨key, hkey, rfl⟩ := List.mem_map.1 hline
    obtain ⟨h, -, -, rfl⟩ := mem_canonicalKeys_iff.1 hkey
    rw [canonicalLine, List.mem_append, List.mem_cons, not_or, not_or]
    exact ⟨h.newline_notMem_key, by decide, newline_notMem_joinedValues headers _⟩

/-- The names of lines that are canonical are the canonical names. -/
theorem map_key_of_lines_eq
    (h : sorted.map (·.line) = (canonicalKeys headers).map (canonicalLine headers)) :
    sorted.map (·.key) = canonicalKeys headers := by
  have hname : ∀ h : HeaderLine, ∀ v, (h.key ++ 58 :: v).takeWhile (· != 58) = h.key := by
    intro h v
    rw [List.takeWhile_append_of_pos fun _ => HeaderLine.ne_of_mem_key,
      List.takeWhile_cons_of_neg (by decide), List.append_nil]
  have hnames := congrArg (List.map fun line : Bytes => line.takeWhile (· != 58)) h
  rw [List.map_map, List.map_map] at hnames
  refine (List.map_congr_left fun h _ => (hname h h.value).symm).trans (hnames.trans ?_)
  refine (List.map_congr_left fun key hkey => ?_).trans (List.map_id _)
  obtain ⟨h, -, -, rfl⟩ := mem_canonicalKeys_iff.1 hkey
  exact hname h _

/-- Of different keys, each belongs to one element. -/
theorem filter_beq_eq_singleton {α β : Type*} [BEq β] [LawfulBEq β] {f : α → β} {l : List α}
    (hnodup : (l.map f).Nodup) {a : α} (ha : a ∈ l) : l.filter (f · == f a) = [a] := by
  induction l with
  | nil => cases ha
  | cons b l ih =>
      rw [List.map_cons, List.nodup_cons] at hnodup
      rcases List.mem_cons.1 ha with rfl | ha
      · have hrest : l.filter (f · == f a) = [] := by
          rw [List.filter_eq_nil_iff]
          intro b hb heq
          exact hnodup.1 (eq_of_beq heq ▸ List.mem_map_of_mem hb)
        rw [List.filter_cons, if_pos (beq_self_eq_true (f a)), hrest]
      · have hne : ¬ (f b == f a) = true := by
          intro heq
          exact hnodup.1 (eq_of_beq heq ▸ List.mem_map_of_mem ha)
        rw [List.filter_cons, if_neg hne, ih hnodup.2 ha]

/-- The headers of Amazon are among the first hundred if there are none behind. -/
theorem filter_take_eq (hwithin : ∀ h ∈ headers.drop 100, h.isAmz = false) :
    (headers.take 100).filter (·.isAmz) = headers.filter (·.isAmz) := by
  have hdrop : (headers.drop 100).filter (·.isAmz) = [] := by
    rw [List.filter_eq_nil_iff]
    intro h hmem
    rw [hwithin h hmem]
    exact Bool.false_ne_true
  conv_rhs => rw [← List.take_append_drop 100 headers, List.filter_append, hdrop, List.append_nil]

/-- Of two elements of a list, one comes first. -/
theorem or_of_pairwise {α : Type*} {R : α → α → Prop} {l : List α} (h : l.Pairwise R) {a b : α}
    (ha : a ∈ l) (hb : b ∈ l) (hne : a ≠ b) : R a b ∨ R b a := by
  have hsymm : Std.Symm fun a b => R a b ∨ R b a := ⟨fun a b => Or.symm⟩
  have hboth : l.Pairwise fun a b => R a b ∨ R b a := h.imp Or.inl
  exact hboth.forall ha hb hne

/-- **Lines that are canonical** come from headers that are signed in the canonical form. -/
theorem signsCanonically_of_lines_eq (hperm : sorted.Perm ((headers.take 100).filter (·.isAmz)))
    (hsorted : sorted.Pairwise fun h h' => qsortStrcmp h.text h'.text)
    (h : sorted.map (·.line) = (canonicalKeys headers).map (canonicalLine headers)) :
    SignsCanonically headers := by
  have hkeys := map_key_of_lines_eq h
  rw [← hkeys, List.map_map] at h
  have hline := List.map_inj_left.1 h
  have hfirst : ∀ h ∈ sorted, h ∈ headers.take 100 ∧ h.isAmz = true :=
    fun h hh => List.mem_filter.1 (hperm.mem_iff.1 hh)
  have hone : ∀ h ∈ sorted, headers.filter (·.key == h.key) = [h] ∧
      ∀ ch ∈ h.value.head?, isspace ch = false :=
    fun h hh => filter_key_of_line_eq (List.mem_of_mem_take (hfirst h hh).1) (hline h hh)
  -- every header of Amazon is the one of its name that is signed
  have hall : ∀ h ∈ headers, h.isAmz = true → h ∈ sorted := by
    intro h hh hamz
    have hkey : h.key ∈ sorted.map (·.key) := by
      rw [hkeys]
      exact mem_canonicalKeys_iff.2 ⟨h, hh, hamz, rfl⟩
    obtain ⟨h', hh', hsame⟩ := List.mem_map.1 hkey
    have hmem : h ∈ headers.filter (·.key == h'.key) :=
      List.mem_filter.2 ⟨hh, beq_iff_eq.2 hsame.symm⟩
    rw [(hone h' hh').1, List.mem_singleton] at hmem
    exact hmem ▸ hh'
  have hwithin : ∀ h ∈ headers.drop 100, h.isAmz = false := by
    intro h hh
    by_contra hamz
    rw [Bool.not_eq_false] at hamz
    have hmem := hall h (List.mem_of_mem_drop hh) hamz
    have hlength := congrArg List.length (hone h hmem).1
    rw [← List.take_append_drop 100 headers, List.filter_append, List.length_append] at hlength
    have htake : 0 < ((headers.take 100).filter (·.key == h.key)).length :=
      List.length_pos_of_mem (List.mem_filter.2 ⟨(hfirst h hmem).1, beq_self_eq_true h.key⟩)
    have hdrop : 0 < ((headers.drop 100).filter (·.key == h.key)).length :=
      List.length_pos_of_mem (List.mem_filter.2 ⟨hh, beq_self_eq_true h.key⟩)
    rw [List.length_singleton] at hlength
    omega
  refine ⟨hwithin, ?_, fun h hh hamz => (hone h (hall h hh hamz)).2, ?_⟩
  · rw [filter_take_eq hwithin] at hperm
    rw [← (hperm.map _).nodup_iff, hkeys]
    exact nodup_canonicalKeys headers
  · intro h hh h' hh' hamz hamz' ch rest hcontinues
    have hne : h ≠ h' := by
      rintro rfl
      have hlength := congrArg List.length hcontinues
      simp at hlength
    have hch : ch ≠ 58 := (HeaderLine.ge_of_mem_key (h := h') (hcontinues ▸ by simp)).2
    have hnames : sorted.Pairwise fun h h' => h.key ≤ h'.key := by
      rw [← List.pairwise_map (f := HeaderLine.key), hkeys]
      exact pairwise_canonicalKeys headers
    rcases or_of_pairwise (hsorted.and hnames) (hall h hh hamz) (hall h' hh' hamz') hne with
      ⟨htext, -⟩ | ⟨-, hname⟩
    · rw [qsortStrcmp, HeaderLine.map_tolower_text, HeaderLine.map_tolower_text,
        hcontinues] at htext
      exact UInt8.lt_of_le_of_ne (colon_le_of_text_le htext) hch.symm
    · have hsame : h.key = h'.key := by
        refine List.le_antisymm ?_ hname
        rw [hcontinues]
        exact List.le_append_left
      rw [hsame] at hcontinues
      have hlength := congrArg List.length hcontinues
      simp at hlength

/-- **Headers that are signed in the canonical form** give the canonical lines. -/
theorem SignsCanonically.lines_eq (h : SignsCanonically headers)
    (hperm : sorted.Perm ((headers.take 100).filter (·.isAmz)))
    (hsorted : sorted.Pairwise fun h h' => qsortStrcmp h.text h'.text) :
    sorted.map (·.line) = (canonicalKeys headers).map (canonicalLine headers) := by
  rw [filter_take_eq h.within] at hperm
  have hmem : ∀ h ∈ sorted, h ∈ headers ∧ h.isAmz = true :=
    fun h hh => List.mem_filter.1 (hperm.mem_iff.1 hh)
  have hnames : (sorted.map (·.key)).Pairwise (· ≤ ·) := by
    rw [List.pairwise_map]
    refine hsorted.imp_of_mem fun {a b} ha hb hle => ?_
    rw [qsortStrcmp, HeaderLine.map_tolower_text, HeaderLine.map_tolower_text] at hle
    exact key_le_of_text_le (h.ordered b (hmem b hb).1 a (hmem a ha).1 (hmem b hb).2 (hmem a ha).2)
      hle
  have hcanonical : (canonicalKeys headers).Perm ((headers.filter (·.isAmz)).map (·.key)) := by
    rw [canonicalKeys, h.distinct.dedup]
    exact List.perm_insertionSort _ _
  have hkeys : sorted.map (·.key) = canonicalKeys headers :=
    List.Perm.eq_of_pairwise (fun _ _ _ _ => List.le_antisymm) hnames
      (pairwise_canonicalKeys headers) ((hperm.map _).trans hcanonical.symm)
  rw [← hkeys, List.map_map]
  refine List.map_congr_left fun a ha => (canonicalLine_eq ?_ ?_).symm
  · have honly : headers.filter (·.key == a.key) =
        (headers.filter (·.isAmz)).filter (·.key == a.key) := by
      rw [List.filter_filter]
      refine List.filter_congr fun b _ => ?_
      cases hkey : b.key == a.key with
      | false => rfl
      | true =>
          have hamz : b.isAmz = true := by
            rw [HeaderLine.isAmz, eq_of_beq hkey]
            exact (hmem a ha).2
          rw [hamz]
          rfl
    rw [honly]
    exact filter_beq_eq_singleton h.distinct (List.mem_filter.2 (hmem a ha))
  · exact h.trimmed a (hmem a ha).1 (hmem a ha).2

/-- **When the canonical form is signed.** -/
theorem signedAmzHeaders_eq_iff {qsort : List Bytes → List Bytes} (hsort : Sorts qsort)
    (date : Bytes) (s3 : S3Comm) (httpMethod hostname filename : Bytes)
    (headers : List HeaderLine) :
    signedAmzHeaders qsort date s3 httpMethod hostname filename headers =
      canonicalAmzHeaders headers ↔ SignsCanonically headers := by
  obtain ⟨sorted, hperm, hsorted, hsigned⟩ :=
    exists_sorted_signedAmzHeaders hsort date s3 httpMethod hostname filename headers
  rw [hsigned, lines_eq_iff]
  exact ⟨signsCanonically_of_lines_eq hperm hsorted, fun h => h.lines_eq hperm hsorted⟩

/-- The header with the owner of a file. -/
def uidHeader : HeaderLine where
  name := ascii "X-AMZ-Meta-Uid"
  value := ascii "1000"
  visible := by decide +kernel
  unbroken := by decide +kernel

theorem signedAmzHeaders_eq_uid :
    signedAmzHeaders sortHeaders (ascii "now") smallHandle (ascii "PUT") (ascii "host")
      (ascii "/a") [uidHeader] = canonicalAmzHeaders [uidHeader] := by
  refine (signedAmzHeaders_eq_iff sorts_sortHeaders _ _ _ _ _ _).2 ⟨?_, ?_, ?_, ?_⟩
  · simp
  · decide +kernel
  · decide +kernel
  · intro h hh h' hh' _ _ ch rest hkey
    rw [List.mem_singleton.1 hh, List.mem_singleton.1 hh'] at hkey
    simpa using congrArg List.length hkey

/-- A header whose name continues that of another one. -/
def uidNumberHeader : HeaderLine where
  name := ascii "X-AMZ-Meta-Uid-Number"
  value := ascii "1"
  visible := by decide +kernel
  unbroken := by decide +kernel

/-- **The lines of two names are in the wrong order** if the one continues the other with a
hyphen. -/
theorem not_signedAmzHeaders_eq :
    signedAmzHeaders sortHeaders (ascii "now") smallHandle (ascii "PUT") (ascii "host")
        (ascii "/a") [uidHeader, uidNumberHeader] ≠
      canonicalAmzHeaders [uidHeader, uidNumberHeader] := by
  have hsigned : signedAmzHeaders sortHeaders (ascii "now") smallHandle (ascii "PUT") (ascii "host")
      (ascii "/a") [uidHeader, uidNumberHeader] =
        ascii "x-amz-meta-uid-number:1" ++ 10 :: (ascii "x-amz-meta-uid:1000" ++ [10]) := by
    decide +kernel
  have hcanonical : canonicalAmzHeaders [uidHeader, uidNumberHeader] =
      ascii "x-amz-meta-uid:1000" ++ 10 :: (ascii "x-amz-meta-uid-number:1" ++ [10]) := by
    decide +kernel
  rw [hsigned, hcanonical]
  decide +kernel

end AwsS3fs
