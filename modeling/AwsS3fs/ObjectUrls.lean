/-
**The URLs of objects.**

The name of an object is turned into a URL in two places: `PrependHttpsToPath` (`s3if.c`) makes the
name under which the cache knows a file, and `s3_SubmitS3Request` (`s3comms.c`) the URL of a
request.  In the region `US_STANDARD` the bucket is a part of the path, in all others of the host
name, and only one of the two functions knows it.  The queue of transfers takes the URL apart again,
with regular expressions: `ExtractHostAndFilepath` into host and path, and `HostnameToRegion`
reads off the region (`downloadqueue.c`).

Main definitions:

* `AwsS3fs.BucketRegion`, `AwsS3fs.getS3HostNameByRegion` — the regions and their hosts;
* `AwsS3fs.prependHttpsToPath`, `AwsS3fs.submitS3Url` — the two ways to build a URL;
* `AwsS3fs.extractHostAndFilepath`, `AwsS3fs.hostnameToRegion` — the ways to take it apart.

Main results:

* `AwsS3fs.prependHttpsToPath_eq_submitS3Url_iff` — **when the two ways lead to the same object**;
* `AwsS3fs.extractFilepath_eq_some_iff`, `AwsS3fs.extractFilepath_prependHttpsToPath_iff` — the path
  that is found in a URL, and in a URL that was built;
* `AwsS3fs.extractHostAndFilepath_iff` — **when a URL is taken apart as it was built**;
* `AwsS3fs.hostnameToRegion_prependHttpsToPath` — **the region is read off every URL**.
-/

import AwsS3fs.CommandReplies
import AwsS3fs.UploadSource

set_option relaxedAutoImplicit false
set_option autoImplicit false

namespace AwsS3fs

open CLib

/-! ### Building a URL -/

/-- `enum bucketRegions`. -/
inductive BucketRegion
  | usStandard
  | oregon
  | northernCalifornia
  | ireland
  | singapore
  | tokyo
  | saoPaulo
  deriving DecidableEq, Repr

/-- `amazonHost` of `GetS3HostNameByRegion`. -/
def amazonHost : BucketRegion → Bytes
  | .usStandard => ascii "s3"
  | .oregon => ascii "s3-us-west-2"
  | .northernCalifornia => ascii "s3-us-west-1"
  | .ireland => ascii "s3-eu-west-1"
  | .singapore => ascii "s3-ap-southeast-1"
  | .tokyo => ascii "s3-ap-northeast-1"
  | .saoPaulo => ascii "s3-sa-east-1"

/-- `GetS3HostNameByRegion`. -/
def getS3HostNameByRegion (region : BucketRegion) (bucket : Bytes) : Bytes :=
  if region ≠ .usStandard then
    bucket ++ 46 :: (amazonHost region ++ ascii ".amazonaws.com")
  else ascii "s3.amazonaws.com"

/-- `PrependHttpsToPath`. -/
def prependHttpsToPath (region : BucketRegion) (bucket path : Bytes) : Bytes :=
  ascii "https://" ++ (getS3HostNameByRegion region bucket ++ path)

/-- `filename[ 0 ] == '/' ? "" : "/"`. -/
def leadingSlash (filename : Bytes) : Bytes := if filename.head? = some 47 then [] else [47]

/-- The URL of `s3_SubmitS3Request`. -/
def submitS3Url (region : BucketRegion) (bucket filename : Bytes) : Bytes :=
  if region ≠ .usStandard then
    ascii "https://" ++
      (getS3HostNameByRegion region bucket ++ (leadingSlash filename ++ filename))
  else
    ascii "https://" ++
      (getS3HostNameByRegion region bucket ++ 47 :: (bucket ++ (leadingSlash filename ++ filename)))

/-! ### Taking a URL apart -/

/-- `^http`, an expression for the `s`, `://` and the rest of a URL. -/
def httpUrl (s rest : Regex UInt8) : Regex UInt8 :=
  .seq .bos (.seq (.literal (ascii "http")) (.seq s (.seq (.literal (ascii "://")) rest)))

/-- `.+\.amazonaws\.com`. -/
def anyHost (nl : Newlines) : Regex UInt8 :=
  .seq (.run (!nl.isNewline ·) 1 none) (.literal (ascii ".amazonaws.com"))

/-- The expression `^http(s?)://(.+\.amazonaws\.com).*` for the host in a URL. -/
def hostname (nl : Newlines) : Regex UInt8 :=
  httpUrl (.group 1 (.run (· = 115) 0 (some 1)))
    (.seq (.group 2 (anyHost nl)) (.run (!nl.isNewline ·) 0 none))

/-- `ExtractHostAndFilepath`: what the expressions do not find is `NULL`. -/
def extractHostAndFilepath (nl : Newlines) (remotePath : Bytes) : Option Bytes × Option Bytes :=
  (((hostname nl).search true remotePath).map fun found => found.2.fetch 2,
    extractFilepath nl remotePath)

/-- `([^\.]+\.)`, group `1`. -/
def subdomainPart : Regex UInt8 :=
  .group 1 (.seq (.run (· ≠ 46) 1 none) (.run (· = 46) 1 (some 1)))

/-- `([^\.]+)\.amazonaws\.com`, group `2`. -/
def labelPart : Regex UInt8 :=
  .seq (.group 2 (.run (· ≠ 46) 1 none)) (.literal (ascii ".amazonaws.com"))

/-- The expression `^http[s]?://([^\.]+\.)?([^\.]+)\.amazonaws\.com` for the region in a URL. -/
def regionPart : Regex UInt8 :=
  httpUrl (.run (· = 115) 0 (some 1)) (.seq (.alt subdomainPart (.literal [])) labelPart)

/-- `amazonHost` of `HostnameToRegion`, in the order of the regions. -/
def hostRegions : List (Bytes × BucketRegion) :=
  [(ascii "s3", .usStandard), (ascii "s3-us-west-2", .oregon),
    (ascii "s3-us-west-1", .northernCalifornia), (ascii "s3-eu-west-1", .ireland),
    (ascii "s3-ap-southeast-1", .singapore), (ascii "s3-ap-northeast-1", .tokyo),
    (ascii "s3-sa-east-1", .saoPaulo)]

/-- `HostnameToRegion`.  Nothing stands for a name that is not in the table, and for the variable
that is not set if the expression does not match. -/
def hostnameToRegion (url : Bytes) : Option BucketRegion :=
  (regionPart.search true url).bind fun found =>
    (hostRegions.find? (·.1 = found.2.fetch 2)).map (·.2)

variable {nl : Newlines} {region : BucketRegion} {bucket path : Bytes}

/-! ### The same object -/

/-- **When the two ways lead to the same object**: the bucket is a part of the host name, and the
path begins with a slash. -/
theorem prependHttpsToPath_eq_submitS3Url_iff (region : BucketRegion) (bucket path : Bytes) :
    prependHttpsToPath region bucket path = submitS3Url region bucket path ↔
      region ≠ .usStandard ∧ path.head? = some 47 := by
  unfold prependHttpsToPath submitS3Url
  by_cases hregion : region = .usStandard
  · rw [if_neg (not_not.2 hregion)]
    refine iff_of_false (fun heq => ?_) (fun h => h.1 hregion)
    have hlength := congrArg List.length (List.append_cancel_left (List.append_cancel_left heq))
    simp only [List.length_cons, List.length_append] at hlength
    omega
  · rw [if_pos hregion]
    constructor
    · intro heq
      refine ⟨hregion, ?_⟩
      have hlength := congrArg List.length (List.append_cancel_left (List.append_cancel_left heq))
      by_contra hslash
      rw [leadingSlash, if_neg hslash, List.length_append, List.length_singleton] at hlength
      omega
    · rintro ⟨-, hslash⟩
      rw [leadingSlash, if_pos hslash, List.nil_append]

/-- In the first region the cache asks for an object of another bucket. -/
theorem prependHttpsToPath_ne_submitS3Url :
    ¬ ∀ (region : BucketRegion) (bucket path : Bytes),
      prependHttpsToPath region bucket path = submitS3Url region bucket path := by
  intro h
  exact absurd (h .usStandard (ascii "bucket") (ascii "/a")) (by decide +kernel)

/-! ### Host names -/

/-- What comes before `.amazonaws.com` in a host name. -/
def hostLabel (region : BucketRegion) (bucket : Bytes) : Bytes :=
  if region ≠ .usStandard then bucket ++ 46 :: amazonHost region else ascii "s3"

theorem getS3HostNameByRegion_eq (region : BucketRegion) (bucket : Bytes) :
    getS3HostNameByRegion region bucket = hostLabel region bucket ++ ascii ".amazonaws.com" := by
  unfold getS3HostNameByRegion hostLabel
  split
  · rw [List.append_assoc, List.cons_append]
  · rfl

theorem isspace_of_isBucket {ch : UInt8} (h : isBucket ch = true) : isspace ch = false := by
  simp only [isBucket, Bool.or_eq_true, beq_iff_eq] at h
  rcases h with ((h | rfl) | rfl) | rfl
  · by_contra hspace
    rw [Bool.not_eq_false] at hspace
    have hnot := isalnum_of_isspace_or_ispunct (by rw [hspace, Bool.true_or])
    rw [h] at hnot
    cases hnot
  · rfl
  · rfl
  · rfl

theorem ne_dot_of_isBucket {ch : UInt8} (h : isBucket ch = true) : ch ≠ 46 := by
  rintro rfl
  exact absurd h (by decide)

theorem amazonHost_spec (region : BucketRegion) :
    amazonHost region ≠ [] ∧ ∀ ch ∈ amazonHost region, ch ≠ 46 ∧ isspace ch = false := by
  cases region <;> decide +kernel

theorem isspace_of_mem_hostLabel (hbucket : ∀ ch ∈ bucket, isBucket ch = true) {ch : UInt8}
    (hch : ch ∈ hostLabel region bucket) : isspace ch = false := by
  unfold hostLabel at hch
  split at hch
  · rcases List.mem_append.1 hch with hch | hch
    · exact isspace_of_isBucket (hbucket ch hch)
    · rcases List.mem_cons.1 hch with rfl | hch
      · rfl
      · exact ((amazonHost_spec region).2 ch hch).2
  · revert ch
    decide +kernel

theorem isspace_of_mem_getS3HostNameByRegion (hbucket : ∀ ch ∈ bucket, isBucket ch = true)
    {ch : UInt8} (hch : ch ∈ getS3HostNameByRegion region bucket) : isspace ch = false := by
  have hsuffix : ∀ ch ∈ ascii ".amazonaws.com", isspace ch = false := by decide +kernel
  rw [getS3HostNameByRegion_eq] at hch
  rcases List.mem_append.1 hch with hch | hch
  · exact isspace_of_mem_hostLabel hbucket hch
  · exact hsuffix ch hch

theorem isNewline_of_isspace {ch : UInt8} (h : isspace ch = false) : nl.isNewline ch = false := by
  by_contra hnewline
  rw [nl.isspace_of_isNewline ch (by simpa using hnewline)] at h
  cases h

/-! ### The beginning of a URL -/

/-- The first attempt at a URL of the scheme `https`. -/
theorem head?_attempts_httpUrl {s rest : Regex UInt8} {groups : List (ℕ × Bytes)} {u : Bytes}
    {m : Regex.Match UInt8}
    (hs : ∀ first t, (s.attempts first (115 :: t)).head? = some ⟨[115], groups, t⟩)
    (hrest : (rest.attempts false u).head? = some m) :
    ((httpUrl s rest).attempts true (ascii "https://" ++ u)).head? =
      some ⟨ascii "https://" ++ m.text, groups ++ m.groups, m.rest⟩ := by
  have hbos : ∀ t : Bytes, (Regex.bos.attempts true t).head? = some ⟨[], [], t⟩ := fun _ => rfl
  have hsplit : ascii "https://" ++ u = ascii "http" ++ 115 :: (ascii "://" ++ u) := rfl
  rw [httpUrl, hsplit, Regex.head?_attempts_seq (hbos _) (Regex.head?_attempts_seq
    (Regex.head?_attempts_literal _ _) (Regex.head?_attempts_seq (hs _ _)
      (Regex.head?_attempts_seq (Regex.head?_attempts_literal _ _) hrest)))]
  simp only [Regex.Match.append, List.nil_append]
  rfl

/-- `s?` takes the `s`. -/
theorem head?_attempts_s (first : Bool) (t : Bytes) :
    ((Regex.run (· = (115 : UInt8)) 0 (some 1)).attempts first (115 :: t)).head? =
      some ⟨[115], [], t⟩ :=
  Regex.head?_attempts_run (a := [115]) (Nat.zero_le _) (by simp) (by simp) (.inl rfl)

/-! ### The region -/

theorem head?_attempts_label {first : Bool} {label rest : Bytes} (hne : label ≠ [])
    (hlabel : ∀ ch ∈ label, ch ≠ 46) :
    (labelPart.attempts first (label ++ (ascii ".amazonaws.com" ++ rest))).head? =
      some ⟨label ++ ascii ".amazonaws.com", [(2, label)], rest⟩ := by
  have hrun : ((Regex.run (· ≠ (46 : UInt8)) 1 none).attempts first
      (label ++ (ascii ".amazonaws.com" ++ rest))).head? =
        some ⟨label, [], ascii ".amazonaws.com" ++ rest⟩ :=
    Regex.head?_attempts_run (List.length_pos_iff.2 hne) (by simp) (by simpa using hlabel)
      (.inr (by simp [ascii]; decide))
  rw [labelPart, Regex.head?_attempts_seq (Regex.head?_attempts_group hrun)
    (Regex.head?_attempts_literal _ _)]
  rfl

/-- What is left behind a label and a dot. -/
theorem of_mem_attempts_subdomainPart {first : Bool} {s : Bytes} {m : Regex.Match UInt8}
    (h : m ∈ subdomainPart.attempts first s) :
    ∃ label, (∀ ch ∈ label, decide (ch ≠ 46) = true) ∧ s = label ++ 46 :: m.rest := by
  obtain ⟨m₁, h₁, rfl⟩ := Regex.mem_attempts_group.1 h
  obtain ⟨m₂, h₂, m₃, h₃, rfl⟩ := Regex.mem_attempts_seq.1 h₁
  obtain ⟨hs, -, -, -, hlabel⟩ := Regex.mem_attempts_run.1 h₂
  obtain ⟨hdot, -, hlo, hhi, heq⟩ := Regex.mem_attempts_run.1 h₃
  obtain ⟨d, hd⟩ := List.length_eq_one_iff.1 (le_antisymm (hhi 1 rfl) hlo)
  obtain rfl : d = 46 := by simpa [hd] using heq
  rw [hdot, hd] at hs
  exact ⟨m₂.text, hlabel, hs⟩

/-- What a label before `.amazonaws.com` is. -/
theorem of_mem_attempts_labelPart {first : Bool} {s : Bytes} {m : Regex.Match UInt8}
    (h : m ∈ labelPart.attempts first s) :
    ∃ label, (∀ ch ∈ label, decide (ch ≠ 46) = true) ∧
      s = label ++ 46 :: (ascii "amazonaws.com" ++ m.rest) := by
  obtain ⟨m₁, h₁, m₂, h₂, rfl⟩ := Regex.mem_attempts_seq.1 h
  obtain ⟨m₃, h₃, rfl⟩ := Regex.mem_attempts_group.1 h₁
  obtain ⟨hs, -, -, -, hlabel⟩ := Regex.mem_attempts_run.1 h₃
  obtain ⟨hliteral, -, -⟩ := Regex.mem_attempts_literal.1 h₂
  rw [show m₃.rest = _ from hliteral] at hs
  exact ⟨m₃.text, hlabel, hs⟩

/-- In the first region there is one label before `.amazonaws.com`, not two. -/
theorem attempts_subdomainPart_eq_nil {first : Bool} (path : Bytes) :
    (Regex.seq subdomainPart labelPart).attempts first (ascii "s3.amazonaws.com" ++ path) = [] := by
  rw [List.eq_nil_iff_forall_not_mem]
  intro m hm
  obtain ⟨m₁, h₁, m₂, h₂, -⟩ := Regex.mem_attempts_seq.1 hm
  obtain ⟨label₁, hlabel₁, hs₁⟩ := of_mem_attempts_subdomainPart h₁
  obtain ⟨label₂, hlabel₂, hs₂⟩ := of_mem_attempts_labelPart h₂
  -- the first label is `s3`, the second one `amazonaws`, and `.com` comes after it
  have hdot : decide ((46 : UInt8) ≠ 46) = false := rfl
  have hlabels : ∀ label ∈ [ascii "s3", ascii "amazonaws"], ∀ ch ∈ label,
      decide (ch ≠ 46) = true := by
    decide +kernel
  obtain ⟨-, -, hrest₁⟩ := append_cons_inj (hlabels (ascii "s3") (by simp)) hlabel₁ hdot hdot
    (show ascii "s3" ++ 46 :: (ascii "amazonaws.com" ++ path) = _ from hs₁)
  rw [← hrest₁] at hs₂
  obtain ⟨-, -, hrest₂⟩ := append_cons_inj (hlabels (ascii "amazonaws") (by simp)) hlabel₂ hdot hdot
    (show ascii "amazonaws" ++ 46 :: (ascii "com" ++ path) = _ from hs₂)
  exact absurd (congrArg List.head? hrest₂) (by simp [ascii]; decide)

theorem head?_attempts_subdomainPart {first : Bool} {label rest : Bytes} (hne : label ≠ [])
    (hlabel : ∀ ch ∈ label, ch ≠ 46) :
    (subdomainPart.attempts first (label ++ 46 :: rest)).head? =
      some ⟨label ++ [46], [(1, label ++ [46])], rest⟩ := by
  have hrun : ((Regex.run (· ≠ (46 : UInt8)) 1 none).attempts first (label ++ 46 :: rest)).head? =
      some ⟨label, [], 46 :: rest⟩ :=
    Regex.head?_attempts_run (List.length_pos_iff.2 hne) (by simp) (by simpa using hlabel)
      (.inr (by simp))
  have hdot : ∀ first, ((Regex.run (· = (46 : UInt8)) 1 (some 1)).attempts first
      ([46] ++ rest)).head? = some ⟨[46], [], rest⟩ :=
    fun first => Regex.head?_attempts_run (le_refl 1) (by simp) (by simp) (.inl rfl)
  rw [subdomainPart,
    Regex.head?_attempts_group (Regex.head?_attempts_seq hrun (hdot _))]
  rfl

/-- The labels that are found in a host name: in the first region one, in the others two. -/
theorem head?_attempts_labels (region : BucketRegion) (hne : bucket ≠ [])
    (hbucket : ∀ ch ∈ bucket, isBucket ch = true) (path : Bytes) :
    ∃ text groups, ((Regex.seq (.alt subdomainPart (.literal [])) labelPart).attempts false
        (getS3HostNameByRegion region bucket ++ path)).head? =
          some ⟨text, groups ++ [(2, amazonHost region)], path⟩ ∧ ∀ g ∈ groups, g.1 = 1 := by
  obtain ⟨hhost, hdots⟩ := amazonHost_spec region
  have hlabel : ∀ first, (labelPart.attempts first
      (amazonHost region ++ (ascii ".amazonaws.com" ++ path))).head? =
        some ⟨amazonHost region ++ ascii ".amazonaws.com", [(2, amazonHost region)], path⟩ :=
    fun first => head?_attempts_label hhost fun ch hch => (hdots ch hch).1
  rw [getS3HostNameByRegion, Regex.attempts_seq_alt]
  by_cases hregion : region = .usStandard
  · subst hregion
    rw [if_neg (not_not.2 rfl), attempts_subdomainPart_eq_nil, List.nil_append]
    exact ⟨_, [], Regex.head?_attempts_seq (Regex.head?_attempts_literal [] _) (hlabel _),
      by simp⟩
  · rw [if_pos hregion, List.append_assoc, List.cons_append, List.append_assoc, List.head?_append,
      Regex.head?_attempts_seq (head?_attempts_subdomainPart hne fun ch hch =>
        ne_dot_of_isBucket (hbucket ch hch)) (hlabel _)]
    exact ⟨_, [(1, bucket ++ [46])], rfl, by simp⟩

/-- The second group of the expression is the host of the region. -/
theorem search_regionPart (region : BucketRegion) {bucket : Bytes} (hne : bucket ≠ [])
    (hbucket : ∀ ch ∈ bucket, isBucket ch = true) (path : Bytes) :
    ∃ found, regionPart.search true
        (ascii "https://" ++ (getS3HostNameByRegion region bucket ++ path)) = some found ∧
      found.2.fetch 2 = amazonHost region := by
  obtain ⟨text, groups, hhead, hgroups⟩ := head?_attempts_labels region hne hbucket path
  have hfetch : (groups ++ [(2, amazonHost region)]).find? (·.1 = 2) =
      some (2, amazonHost region) := by
    rw [List.find?_append, List.find?_eq_none.2]
    · rfl
    · intro g hg
      simp [hgroups g hg]
  refine ⟨_, Regex.search_of_head? (head?_attempts_httpUrl head?_attempts_s hhead)
    (by simp [ascii]), ?_⟩
  rw [Regex.Match.fetch, List.nil_append, hfetch]
  rfl

/-- The host of a region is in the table. -/
theorem hostnameToRegion_of_search {url : Bytes} {found : Bytes × Regex.Match UInt8}
    {region : BucketRegion} (hsearch : regionPart.search true url = some found)
    (hfetch : found.2.fetch 2 = amazonHost region) : hostnameToRegion url = some region := by
  rw [hostnameToRegion, hsearch, Option.bind_some, hfetch]
  cases region <;> decide +kernel

/-- **The region is read off every URL**, whatever the path looks like. -/
theorem hostnameToRegion_prependHttpsToPath (region : BucketRegion) (bucket : Bytes)
    (hne : bucket ≠ []) (hbucket : ∀ ch ∈ bucket, isBucket ch = true) (path : Bytes) :
    hostnameToRegion (ascii "https://" ++ (getS3HostNameByRegion region bucket ++ path)) =
      some region := by
  obtain ⟨found, hsearch, hfetch⟩ := search_regionPart region hne hbucket path
  exact hostnameToRegion_of_search hsearch hfetch

/-- In another region, with a path that looks like a host name. -/
theorem hostnameToRegion_tokyo :
    hostnameToRegion (ascii "https://bucket.s3-ap-northeast-1.amazonaws.com/s3.amazonaws.com") =
      some .tokyo :=
  hostnameToRegion_prependHttpsToPath .tokyo (ascii "bucket") (by decide +kernel)
    (by decide +kernel) (ascii "/s3.amazonaws.com")

/-! ### The path in a URL -/

/-- A way to take a URL apart that the expression for the path allows: a host name, a path that
begins with a slash, and at most the end of a line. -/
structure HostSplit (nl : Newlines) (u host path tail : Bytes) : Prop where
  eq : u = host ++ (ascii ".amazonaws.com" ++ (path ++ tail))
  ne_nil : host ≠ []
  hostLine : ∀ ch ∈ host, nl.isNewline ch = false
  slash : path.head? = some 47
  pathLine : ∀ ch ∈ path, nl.isNewline ch = false
  tailLength : tail.length ≤ 1
  tailLine : ∀ ch ∈ tail, nl.isNewline ch = true

theorem attempts_hostPart (u : Bytes) :
    (hostPart nl).attempts true (ascii "https://" ++ u) =
      ((anyHost nl).attempts false u).map fun m =>
        ⟨ascii "https://" ++ m.text, m.groups, m.rest⟩ := by
  have hsplit : ascii "https://" ++ u = ascii "http" ++ 115 :: (ascii "://" ++ u) := rfl
  have hbos : ∀ t : Bytes, Regex.bos.attempts true t = [⟨[], [], t⟩] := fun _ => rfl
  -- without the `s` the rest of the scheme does not match
  have hs : ∀ (first : Bool) (rest : Regex UInt8),
      ((Regex.run (· = (115 : UInt8)) 0 (some 1)).seq
        ((Regex.literal (ascii "://")).seq rest)).attempts first (115 :: (ascii "://" ++ u)) =
      (rest.attempts false u).map fun m => ⟨115 :: (ascii "://" ++ m.text), m.groups, m.rest⟩ := by
    intro first rest
    have hrun : (Regex.run (· = (115 : UInt8)) 0 (some 1)).attempts first
        (115 :: (ascii "://" ++ u)) =
        [⟨[115], [], ascii "://" ++ u⟩, ⟨[], [], 115 :: (ascii "://" ++ u)⟩] := by
      simp [Regex.attempts, Regex.greedy, List.range_succ]
    have hnone : ∀ first, ((Regex.literal (ascii "://")).seq rest).attempts first
        (115 :: (ascii "://" ++ u)) = [] := fun first =>
      Regex.attempts_seq_eq_nil (Regex.attempts_literal_eq_nil (by simp [ascii]; decide))
    rw [Regex.attempts, hrun, List.flatMap_cons, List.flatMap_cons, hnone,
      Regex.attempts_seq_of_eq_singleton (Regex.attempts_literal _ _), List.flatMap_nil,
      List.map_nil, List.append_nil, List.append_nil, List.map_map]
    simp [Function.comp_def, Regex.Match.append, ascii]
  rw [hostPart, hsplit, Regex.attempts_seq_of_eq_singleton (hbos _),
    Regex.attempts_seq_of_eq_singleton (Regex.attempts_literal _ _), hs, List.map_map, List.map_map]
  rfl

/-- What the rest of the expression takes from the text after the host name. -/
theorem of_mem_attempts_pathPart {first : Bool} {v : Bytes} {m : Regex.Match UInt8}
    (h : m ∈ ((pathPart nl).seq (.eos nl.isNewline)).attempts first v) :
    ∃ path tail, v = path ++ tail ∧ path.head? = some 47 ∧
      (∀ ch ∈ path, nl.isNewline ch = false) ∧ tail.length ≤ 1 ∧
      (∀ ch ∈ tail, nl.isNewline ch = true) ∧ m.groups = [(1, path)] := by
  obtain ⟨m₁, h₁, m₂, h₂, rfl⟩ := Regex.mem_attempts_seq.1 h
  obtain ⟨m₃, h₃, rfl⟩ := Regex.mem_attempts_group.1 h₁
  obtain ⟨m₄, h₄, m₅, h₅, rfl⟩ := Regex.mem_attempts_seq.1 h₃
  obtain ⟨rfl, hgroups₄, hlo, -, hslash⟩ := Regex.mem_attempts_run.1 h₄
  obtain ⟨hrest₄, hgroups₅, -, -, hline⟩ := Regex.mem_attempts_run.1 h₅
  obtain ⟨c, text, htext⟩ := List.exists_cons_of_ne_nil (List.length_pos_iff.1 hlo)
  have hc : c = 47 := by simpa using hslash c (by simp [htext])
  rw [Regex.attempts] at h₂
  split at h₂
  · rename_i hend
    refine ⟨m₄.text ++ m₅.text, m₅.rest, by rw [hrest₄, List.append_assoc], ?_, ?_, hend.1, hend.2,
      ?_⟩
    · rw [htext, hc, List.cons_append, List.head?_cons]
    · intro ch hch
      rcases List.mem_append.1 hch with hch | hch
      · rw [of_decide_eq_true (hslash ch hch)]
        exact isNewline_of_isspace rfl
      · simpa using hline ch hch
    · rw [List.mem_singleton.1 h₂]
      simp [Regex.Match.append, hgroups₄, hgroups₅]
  · cases h₂

theorem attempts_pathPart_ne_nil (first : Bool) {path tail : Bytes}
    (hslash : path.head? = some 47) (hpath : ∀ ch ∈ path, nl.isNewline ch = false)
    (hlength : tail.length ≤ 1) (htail : ∀ ch ∈ tail, nl.isNewline ch = true) :
    ((pathPart nl).seq (.eos nl.isNewline)).attempts first (path ++ tail) ≠ [] := by
  obtain ⟨rest, rfl⟩ := List.head?_eq_some_iff.1 hslash
  have hmatches : Regex.Matches ((pathPart nl).seq (.eos nl.isNewline)) first
      (([47] ++ rest) ++ []) tail := by
    refine .seq (.group (.seq (.run (le_refl 1) (by simp) (by simp)) (.run (Nat.zero_le _) (by simp)
      fun ch hch => ?_))) (.eos hlength htail)
    rw [hpath ch (List.mem_cons_of_mem _ hch)]
    rfl
  obtain ⟨m, hm, -⟩ := Regex.exists_mem_attempts hmatches
  rw [List.append_nil] at hm
  exact List.ne_nil_of_mem hm

/-- The search for the path is the first attempt at the beginning of the URL. -/
theorem extractFilepath_eq (u : Bytes) :
    extractFilepath nl (ascii "https://" ++ u) =
      ((removeHost nl).attempts true (ascii "https://" ++ u)).head?.map (·.fetch 1) := by
  have htext : ∀ m ∈ (removeHost nl).attempts true (ascii "https://" ++ u), m.text ≠ [] := by
    intro m hm
    obtain ⟨m₁, h₁, m₂, -, rfl⟩ := Regex.mem_attempts_seq.1 hm
    rw [attempts_hostPart] at h₁
    obtain ⟨m₃, -, rfl⟩ := List.mem_map.1 h₁
    simp [Regex.Match.append, ascii]
  rw [extractFilepath]
  cases hhead : ((removeHost nl).attempts true (ascii "https://" ++ u)).head? with
  | none =>
      have hnone : (removeHost nl).search true (ascii "https://" ++ u) = none := by
        rw [Regex.search_eq_none_iff]
        rintro ⟨before, a, rest, hs, -, hmatches⟩
        -- the expression begins with `^`
        have hbefore : (true && before.isEmpty) = true := by
          cases hmatches with
          | seq hhost hpath =>
              cases hhost with
              | seq hbos _ =>
                  revert hbos
                  generalize (true && before.isEmpty) = first
                  intro hbos
                  cases hbos
                  rfl
        rw [hbefore] at hmatches
        rw [List.isEmpty_iff.1 hbefore, List.nil_append] at hs
        obtain ⟨m, hm, -⟩ := Regex.exists_attempt_iff.2 ⟨hs, hmatches⟩
        rw [List.head?_eq_none_iff.1 hhead] at hm
        cases hm
      rw [hnone]
      rfl
  | some m =>
      rw [Regex.search_of_head? hhead (htext m (List.mem_of_mem_head? hhead))]
      rfl

/-- A path up to the end of the line. -/
theorem HostSplit.takeWhile {u host path tail : Bytes} (h : HostSplit nl u host path tail) :
    (path ++ tail).takeWhile (!nl.isNewline ·) = path := by
  have htail : tail.takeWhile (!nl.isNewline ·) = [] := by
    rw [List.takeWhile_eq_nil_iff]
    intro hpos
    rw [List.get_eq_getElem, h.tailLine _ (List.getElem_mem hpos)]
    exact Bool.false_ne_true
  rw [List.takeWhile_append_of_pos fun ch hch => by rw [h.pathLine ch hch]; rfl, htail,
    List.append_nil]

/-- Two ways to take a URL apart at the same place are the same. -/
theorem HostSplit.path_eq {u host path tail host' path' tail' : Bytes}
    (h : HostSplit nl u host path tail) (h' : HostSplit nl u host' path' tail')
    (hlength : host.length = host'.length) : path = path' := by
  obtain ⟨-, hrest⟩ := List.append_inj (h.eq.symm.trans h'.eq) hlength
  rw [← h.takeWhile, List.append_cancel_left hrest, h'.takeWhile]

/-- The ways to match the host name in a URL. -/
theorem mem_attempts_hostPart {u : Bytes} {m : Regex.Match UInt8} :
    m ∈ (hostPart nl).attempts true (ascii "https://" ++ u) ↔
      ∃ host, u = host ++ (ascii ".amazonaws.com" ++ m.rest) ∧ host ≠ [] ∧
        (∀ ch ∈ host, nl.isNewline ch = false) ∧
        m.text = ascii "https://" ++ (host ++ ascii ".amazonaws.com") ∧ m.groups = [] := by
  rw [attempts_hostPart, List.mem_map]
  constructor
  · rintro ⟨m₁, h₁, rfl⟩
    obtain ⟨host, hu, htext, hgroups, hlo, hline⟩ := Regex.mem_attempts_upTo.1 h₁
    refine ⟨host, by rw [hu, List.append_assoc], List.length_pos_iff.1 hlo, fun ch hch => ?_,
      by rw [htext], hgroups⟩
    simpa using hline ch hch
  · rintro ⟨host, hu, hne, hline, htext, hgroups⟩
    refine ⟨⟨host ++ ascii ".amazonaws.com", [], m.rest⟩, Regex.mem_attempts_upTo.2 ⟨host,
      by rw [hu, List.append_assoc], rfl, rfl, List.length_pos_iff.2 hne, fun ch hch => ?_⟩, ?_⟩
    · rw [hline ch hch]
      rfl
    · rw [← htext, ← hgroups]

theorem HostSplit.mem_attempts {u host path tail : Bytes} (h : HostSplit nl u host path tail) :
    ⟨ascii "https://" ++ (host ++ ascii ".amazonaws.com"), [], path ++ tail⟩ ∈
      (hostPart nl).attempts true (ascii "https://" ++ u) :=
  mem_attempts_hostPart.2 ⟨host, h.eq, h.ne_nil, h.hostLine, rfl, rfl⟩

/-- The path that is found is the one after the longest host name. -/
theorem of_extractFilepath {u path : Bytes}
    (h : extractFilepath nl (ascii "https://" ++ u) = some path) :
    ∃ host tail, HostSplit nl u host path tail ∧
      ∀ host' path' tail', HostSplit nl u host' path' tail' → host'.length ≤ host.length := by
  have hpairwise : ((hostPart nl).attempts true (ascii "https://" ++ u)).Pairwise
      fun m m' => m'.text.length ≤ m.text.length := by
    rw [attempts_hostPart, List.pairwise_map]
    refine (Regex.pairwise_attempts_upTo _ _ _ _ _).imp fun h => ?_
    simpa using h
  rw [extractFilepath_eq, Option.map_eq_some_iff] at h
  obtain ⟨m, hhead, rfl⟩ := h
  obtain ⟨m₁, h₁, m₂, h₂, rfl, hlongest⟩ := Regex.of_head?_attempts_seq hpairwise hhead
  obtain ⟨host, hu, hne, hline, htext, hgroups₁⟩ := mem_attempts_hostPart.1 h₁
  obtain ⟨path, tail, hrest, hslash, hpath, hlength, htail, hgroups₂⟩ := of_mem_attempts_pathPart h₂
  have hfetch : (m₁.append m₂).fetch 1 = path := by
    simp [Regex.Match.fetch, Regex.Match.append, hgroups₁, hgroups₂]
  rw [hfetch]
  refine ⟨host, tail, ⟨hrest ▸ hu, hne, hline, hslash, hpath, hlength, htail⟩, ?_⟩
  intro host' path' tail' h'
  rcases hlongest _ h'.mem_attempts (attempts_pathPart_ne_nil _ h'.slash h'.pathLine h'.tailLength
    h'.tailLine) with heq | hle
  · have hsame := congrArg (List.length ∘ Regex.Match.text) heq
    simp only [Function.comp_apply, htext, List.length_append] at hsame
    omega
  · rw [htext] at hle
    simp only [List.length_append] at hle
    omega

/-- A text that occurs again after its end, in a rest that begins with a character it does not
contain, occurs in this rest. -/
theorem exists_of_append_eq {w e rest path : Bytes} {c : UInt8} (hc : path.head? = some c)
    (hw : c ∉ w) (he : e ≠ []) (h : e ++ (w ++ rest) = w ++ path) :
    ∃ x, e = w ++ x ∧ path = x ++ (w ++ rest) := by
  rcases List.append_eq_append_iff.1 h with ⟨f, hf, hrest⟩ | ⟨f, he, hpath⟩
  · rcases List.append_eq_append_iff.1 hrest with ⟨g, hg, -⟩ | ⟨g, hg, hpath⟩
    · -- the text would be longer than itself
      have hlength := congrArg List.length hf
      rw [hg, List.length_append, List.length_append] at hlength
      have hpos := List.length_pos_iff.2 he
      omega
    · cases g with
      | nil =>
          have hlength := congrArg List.length hf
          rw [hg, List.append_nil, List.length_append] at hlength
          have hpos := List.length_pos_iff.2 he
          omega
      | cons d g =>
          rw [hpath, List.cons_append, List.head?_cons, Option.some_inj] at hc
          rw [hg, ← hc] at hw
          simp at hw
  · exact ⟨f, he, hpath⟩

theorem slash_not_mem : (47 : UInt8) ∉ ascii ".amazonaws.com" := by decide +kernel

theorem isNewline_amazonaws : ∀ ch ∈ ascii ".amazonaws.com", nl.isNewline ch = false := by
  have hspace : ∀ ch ∈ ascii ".amazonaws.com", isspace ch = false := by decide +kernel
  exact fun ch hch => isNewline_of_isspace (hspace ch hch)

/-- A host name is the longest if no other one ends in the path. -/
theorem HostSplit.longest_iff {u host path tail : Bytes} (h : HostSplit nl u host path tail) :
    (∀ host' path' tail', HostSplit nl u host' path' tail' → host'.length ≤ host.length) ↔
      ¬ ascii ".amazonaws.com" ++ [47] <:+: path := by
  constructor
  · rintro hlongest ⟨x, y, rfl⟩
    have hsplit : HostSplit nl u (host ++ (ascii ".amazonaws.com" ++ x)) (47 :: y) tail := by
      refine ⟨?_, ?_, ?_, rfl, fun ch hch => h.pathLine ch ?_, h.tailLength, h.tailLine⟩
      · rw [h.eq]
        simp
      · simp [h.ne_nil]
      · intro ch hch
        rcases List.mem_append.1 hch with hch | hch
        · exact h.hostLine ch hch
        · rcases List.mem_append.1 hch with hch | hch
          · exact isNewline_amazonaws ch hch
          · exact h.pathLine ch (by simp [hch])
      · simp only [List.append_assoc, List.singleton_append]
        exact List.mem_append_right _ (List.mem_append_right _ hch)
    have hle := hlongest _ _ _ hsplit
    have hpos : 0 < (ascii ".amazonaws.com").length := by decide +kernel
    rw [List.length_append, List.length_append] at hle
    omega
  · intro hlast host' path' tail' h'
    by_contra hlonger
    have heq := h.eq.symm.trans h'.eq
    rcases List.append_eq_append_iff.1 heq with ⟨e, rfl, hrest⟩ | ⟨e, hhost, -⟩
    · have he : e ≠ [] := by
        rintro rfl
        simp at hlonger
      have hhead : (path ++ tail).head? = some 47 := by
        rw [List.head?_append, h.slash, Option.some_or]
      obtain ⟨x, hx, hpath⟩ := exists_of_append_eq hhead slash_not_mem he hrest.symm
      -- the end of the line is the same in both
      have hline : ∀ ch ∈ x ++ ascii ".amazonaws.com", (!nl.isNewline ch) = true := by
        intro ch hch
        rcases List.mem_append.1 hch with hch | hch
        · rw [h'.hostLine ch (by simp [hx, hch])]
          rfl
        · rw [isNewline_amazonaws ch hch]
          rfl
      have hfound : path = x ++ (ascii ".amazonaws.com" ++ path') := by
        rw [← h.takeWhile, hpath, ← List.append_assoc, List.takeWhile_append_of_pos hline,
          h'.takeWhile, List.append_assoc]
      obtain ⟨rest, rfl⟩ := List.head?_eq_some_iff.1 h'.slash
      exact hlast ⟨x, rest, by rw [hfound]; simp⟩
    · rw [hhost, List.length_append] at hlonger
      omega

/-- **The path that is found in a URL** is what comes after the last `.amazonaws.com` before a
slash. -/
theorem extractFilepath_eq_some_iff {u path : Bytes} :
    extractFilepath nl (ascii "https://" ++ u) = some path ↔
      ∃ host tail, HostSplit nl u host path tail ∧
        ¬ ascii ".amazonaws.com" ++ [47] <:+: path := by
  constructor
  · intro h
    obtain ⟨host, tail, hsplit, hlongest⟩ := of_extractFilepath h
    exact ⟨host, tail, hsplit, hsplit.longest_iff.1 hlongest⟩
  · rintro ⟨host, tail, h, hlast⟩
    obtain ⟨path₁, h₁⟩ : ∃ path₁, extractFilepath nl (ascii "https://" ++ u) = some path₁ := by
      rw [extractFilepath_eq]
      cases hhead : ((removeHost nl).attempts true (ascii "https://" ++ u)).head? with
      | none =>
          obtain ⟨m₂, h₂⟩ := List.exists_mem_of_ne_nil _ (attempts_pathPart_ne_nil _ h.slash
            h.pathLine h.tailLength h.tailLine)
          have hmatch := Regex.mem_attempts_seq.2 ⟨_, h.mem_attempts, m₂, h₂, rfl⟩
          rw [← removeHost, List.head?_eq_none_iff.1 hhead] at hmatch
          cases hmatch
      | some m => exact ⟨_, rfl⟩
    obtain ⟨host₁, tail₁, hsplit₁, hlongest₁⟩ := of_extractFilepath h₁
    have hlength := le_antisymm (hlongest₁ _ _ _ h) (h.longest_iff.2 hlast _ _ _ hsplit₁)
    rw [h₁, h.path_eq hsplit₁ hlength]

/-- What is found of the path of a URL that was built: all of it, or what comes after the last
`.amazonaws.com` before a slash, without the end of the line. -/
structure FoundPath (nl : Newlines) (path before found tail : Bytes) : Prop where
  eq : path = before ++ (found ++ tail)
  before_eq : before = [] ∨ ascii ".amazonaws.com" <:+ before
  beforeLine : ∀ ch ∈ before, nl.isNewline ch = false
  slash : found.head? = some 47
  foundLine : ∀ ch ∈ found, nl.isNewline ch = false
  tailLength : tail.length ≤ 1
  tailLine : ∀ ch ∈ tail, nl.isNewline ch = true
  last : ¬ ascii ".amazonaws.com" ++ [47] <:+: found

theorem hostLabel_ne_nil (region : BucketRegion) (bucket : Bytes) :
    hostLabel region bucket ≠ [] := by
  unfold hostLabel
  split
  · simp
  · decide +kernel

theorem isNewline_hostLabel (hbucket : ∀ ch ∈ bucket, isBucket ch = true) :
    ∀ ch ∈ hostLabel region bucket, nl.isNewline ch = false := fun _ hch =>
  isNewline_of_isspace (isspace_of_mem_hostLabel hbucket hch)

/-- A URL that can be taken apart can be taken apart after its host name. -/
theorem HostSplit.of_label {label path host found tail : Bytes} (hne : label ≠ [])
    (hlabel : ∀ ch ∈ label, nl.isNewline ch = false) (hslash : path.head? = some 47)
    (h : HostSplit nl (label ++ (ascii ".amazonaws.com" ++ path)) host found tail) :
    ∃ line, HostSplit nl (label ++ (ascii ".amazonaws.com" ++ path)) label line tail := by
  have hpath : ∀ e, tail ≠ e ++ path := by
    rintro e rfl
    have hmem : (47 : UInt8) ∈ path := List.mem_of_mem_head? hslash
    have hnewline := h.tailLine 47 (List.mem_append_right _ hmem)
    rw [isNewline_of_isspace rfl] at hnewline
    cases hnewline
  have heq : (label ++ ascii ".amazonaws.com") ++ path =
      (host ++ (ascii ".amazonaws.com" ++ found)) ++ tail := by
    simpa using h.eq
  rcases List.append_eq_append_iff.1 heq with ⟨e, hhost, hline⟩ | ⟨e, -, htail⟩
  · refine ⟨e, by rw [hline], hne, hlabel, ?_, fun ch hch => ?_, h.tailLength, h.tailLine⟩
    · cases e with
      | nil => exact absurd hline.symm (hpath [])
      | cons c e =>
          rw [hline, List.cons_append, List.head?_cons] at hslash
          exact hslash
    · have hmem : ch ∈ host ++ (ascii ".amazonaws.com" ++ found) := by
        rw [hhost]
        exact List.mem_append_right _ hch
      rcases List.mem_append.1 hmem with hmem | hmem
      · exact h.hostLine ch hmem
      · rcases List.mem_append.1 hmem with hmem | hmem
        · exact isNewline_amazonaws ch hmem
        · exact h.pathLine ch hmem
  · exact absurd htail (hpath e)

/-- **What is found of the path of a URL that was built.** -/
theorem extractFilepath_prependHttpsToPath_iff (hbucket : ∀ ch ∈ bucket, isBucket ch = true)
    (hslash : path.head? = some 47) {found : Bytes} :
    extractFilepath nl (prependHttpsToPath region bucket path) = some found ↔
      ∃ before tail, FoundPath nl path before found tail := by
  have hne := hostLabel_ne_nil region bucket
  have hlabel : ∀ ch ∈ hostLabel region bucket, nl.isNewline ch = false :=
    isNewline_hostLabel hbucket
  rw [prependHttpsToPath, extractFilepath_eq_some_iff, getS3HostNameByRegion_eq, List.append_assoc]
  constructor
  · rintro ⟨host, tail, h, hlast⟩
    obtain ⟨line, hline⟩ := h.of_label hne hlabel hslash
    have hle := h.longest_iff.2 hlast _ _ _ hline
    rcases List.append_eq_append_iff.1 h.eq with ⟨e, rfl, hrest⟩ | ⟨e, hhost, hrest⟩
    · by_cases he : e = []
      · rw [he, List.nil_append] at hrest
        exact ⟨[], tail, List.append_cancel_left hrest, .inl rfl, by simp, h.slash, h.pathLine,
          h.tailLength, h.tailLine, hlast⟩
      · obtain ⟨x, hx, hpath⟩ := exists_of_append_eq hslash slash_not_mem he hrest.symm
        refine ⟨x ++ ascii ".amazonaws.com", tail, by rw [hpath, List.append_assoc],
          .inr (List.suffix_append _ _), fun ch hch => ?_, h.slash, h.pathLine, h.tailLength,
          h.tailLine, hlast⟩
        rcases List.mem_append.1 hch with hch | hch
        · exact h.hostLine ch (by simp [hx, hch])
        · exact isNewline_amazonaws ch hch
    · obtain rfl : e = [] := by
        rw [hhost, List.length_append] at hle
        exact List.length_eq_zero_iff.1 (by omega)
      rw [List.nil_append] at hrest
      exact ⟨[], tail, (List.append_cancel_left hrest).symm, .inl rfl, by simp, h.slash,
        h.pathLine, h.tailLength, h.tailLine, hlast⟩
  · rintro ⟨before, tail, h⟩
    rcases h.before_eq with hbefore | ⟨x, hbefore⟩
    · refine ⟨hostLabel region bucket, tail, ⟨?_, hne, hlabel, h.slash, h.foundLine, h.tailLength,
        h.tailLine⟩, h.last⟩
      rw [h.eq, hbefore, List.nil_append]
    · refine ⟨hostLabel region bucket ++ (ascii ".amazonaws.com" ++ x), tail, ⟨?_, by simp [hne],
        fun ch hch => ?_, h.slash, h.foundLine, h.tailLength, h.tailLine⟩, h.last⟩
      · rw [h.eq, ← hbefore]
        simp
      · rcases List.mem_append.1 hch with hch | hch
        · exact hlabel ch hch
        · rcases List.mem_append.1 hch with hch | hch
          · exact isNewline_amazonaws ch hch
          · exact h.beforeLine ch (by rw [← hbefore]; exact List.mem_append_left _ hch)

/-! ### Host and path -/

/-- The host name that is found in a URL reaches up to the last `.amazonaws.com`. -/
theorem fetch_hostname {u : Bytes} {m : Regex.Match UInt8}
    (h : ((anyHost nl).attempts false u).head? = some m) :
    ((hostname nl).search true (ascii "https://" ++ u)).map (·.2.fetch 2) = some m.text := by
  have hs : ∀ first t, ((Regex.group 1 (.run (· = (115 : UInt8)) 0 (some 1))).attempts first
      (115 :: t)).head? = some ⟨[115], [(1, [115])], t⟩ :=
    fun first t => Regex.head?_attempts_group (head?_attempts_s first t)
  have hrest := Regex.head?_attempts_seq (Regex.head?_attempts_group (n := 2) h)
    (Regex.head?_attempts_run_none (p := (!nl.isNewline ·)) (Nat.zero_le _))
  have hgroups : m.groups = [] := Regex.groups_of_ungrouped (by simp [anyHost, Regex.ungrouped])
    (List.mem_of_mem_head? h)
  rw [hostname, Regex.search_of_head? (head?_attempts_httpUrl hs hrest) (by simp [ascii]),
    Option.map_some]
  simp [Regex.Match.fetch, Regex.Match.append, hgroups]

/-- The host names that are found in a URL that was built, if its path begins with a slash: they
end in the host or in the path. -/
theorem length_le_of_mem_attempts_anyHost {m : Regex.Match UInt8} (hslash : path.head? = some 47)
    (h : m ∈ (anyHost nl).attempts false (getS3HostNameByRegion region bucket ++ path)) :
    m.text.length ≤ (getS3HostNameByRegion region bucket).length ∨
      ascii ".amazonaws.com" <:+: path := by
  obtain ⟨a, hs, htext, -⟩ := Regex.mem_attempts_upTo.1 h
  rw [getS3HostNameByRegion_eq, List.append_assoc, List.append_assoc] at hs
  rw [getS3HostNameByRegion_eq, htext, List.length_append, List.length_append]
  rcases List.append_eq_append_iff.1 hs with ⟨e, ha, hrest⟩ | ⟨e, ha, -⟩
  · by_cases he : e = []
    · rw [ha, he, List.append_nil]
      exact .inl (le_refl _)
    · obtain ⟨x, -, hpath⟩ := exists_of_append_eq hslash slash_not_mem he hrest.symm
      exact .inr ⟨x, m.rest, by rw [hpath, List.append_assoc]⟩
  · rw [ha, List.length_append]
    exact .inl (by omega)

section

variable (hbucket : ∀ ch ∈ bucket, isBucket ch = true) (hslash : path.head? = some 47)

include hbucket

theorem mem_attempts_anyHost :
    ⟨getS3HostNameByRegion region bucket, [], path⟩ ∈
      (anyHost nl).attempts false (getS3HostNameByRegion region bucket ++ path) := by
  rw [getS3HostNameByRegion_eq]
  refine Regex.mem_attempts_upTo.2 ⟨hostLabel region bucket, rfl, rfl, rfl, ?_, ?_⟩
  · exact List.length_pos_of_ne_nil (hostLabel_ne_nil region bucket)
  · intro ch hch
    rw [isNewline_hostLabel hbucket ch hch]
    rfl

include hslash

theorem head?_attempts_anyHost (hoccurs : ¬ ascii ".amazonaws.com" <:+: path) :
    ((anyHost nl).attempts false (getS3HostNameByRegion region bucket ++ path)).head? =
      some ⟨getS3HostNameByRegion region bucket, [], path⟩ :=
  Regex.head?_attempts_upTo (mem_attempts_anyHost hbucket) fun _ hm' =>
    (length_le_of_mem_attempts_anyHost hslash hm').resolve_right hoccurs

/-- A path that contains `.amazonaws.com` is taken for a part of the host name. -/
theorem fetch_hostname_ne (hnewline : ∀ ch ∈ path, nl.isNewline ch = false)
    (hoccurs : ascii ".amazonaws.com" <:+: path) :
    ((hostname nl).search true (prependHttpsToPath region bucket path)).map (·.2.fetch 2) ≠
      some (getS3HostNameByRegion region bucket) := by
  obtain ⟨x, y, rfl⟩ := hoccurs
  -- the host name, and the path up to the end of the text
  have hlong : ⟨getS3HostNameByRegion region bucket ++ x ++ ascii ".amazonaws.com", [], y⟩ ∈
      (anyHost nl).attempts false
        (getS3HostNameByRegion region bucket ++ (x ++ ascii ".amazonaws.com" ++ y)) := by
    refine Regex.mem_attempts_upTo.2 ⟨getS3HostNameByRegion region bucket ++ x, by simp, rfl, rfl,
      ?_, ?_⟩
    · have hpos : 0 < (ascii ".amazonaws.com").length := by decide +kernel
      rw [getS3HostNameByRegion_eq, List.length_append, List.length_append]
      omega
    · intro ch hch
      rw [Bool.not_eq_true']
      rcases List.mem_append.1 hch with hch | hch
      · exact isNewline_of_isspace (isspace_of_mem_getS3HostNameByRegion hbucket hch)
      · exact hnewline ch (List.mem_append_left _ (List.mem_append_left _ hch))
  cases hhead : ((anyHost nl).attempts false
      (getS3HostNameByRegion region bucket ++ (x ++ ascii ".amazonaws.com" ++ y))).head? with
  | none =>
      rw [List.head?_eq_none_iff.1 hhead] at hlong
      cases hlong
  | some m =>
      rw [prependHttpsToPath, fetch_hostname hhead]
      intro heq
      have hlength := Regex.length_le_of_head? hhead hlong
      rw [Option.some.inj heq] at hlength
      simp [ascii] at hlength

/-- The path of a URL that was built. -/
theorem extractFilepath_prependHttpsToPath (hnewline : ∀ ch ∈ path, nl.isNewline ch = false)
    (hoccurs : ¬ ascii ".amazonaws.com" <:+: path) :
    extractFilepath nl (prependHttpsToPath region bucket path) = some path := by
  refine (extractFilepath_prependHttpsToPath_iff hbucket hslash).2 ⟨[], [], by simp, .inl rfl,
    by simp, hslash, hnewline, by simp, by simp, fun hlast => hoccurs ?_⟩
  exact (List.prefix_append _ _).isInfix.trans hlast

end

/-- **When a URL is taken apart as it was built**: the path does not end a line, and
`.amazonaws.com` does not occur in it. -/
theorem extractHostAndFilepath_iff (nl : Newlines) (region : BucketRegion) {bucket path : Bytes}
    (hbucket : ∀ ch ∈ bucket, isBucket ch = true) (hslash : path.head? = some 47) :
    extractHostAndFilepath nl (prependHttpsToPath region bucket path) =
        (some (getS3HostNameByRegion region bucket), some path) ↔
      (∀ ch ∈ path, nl.isNewline ch = false) ∧ ¬ ascii ".amazonaws.com" <:+: path := by
  rw [extractHostAndFilepath, Prod.mk.injEq]
  constructor
  · rintro ⟨hhost, hpath⟩
    obtain ⟨before, tail, hfound⟩ := (extractFilepath_prependHttpsToPath_iff hbucket hslash).1 hpath
    have hnewline := hfound.foundLine
    exact ⟨hnewline, fun hoccurs => fetch_hostname_ne hbucket hslash hnewline hoccurs hhost⟩
  · rintro ⟨hnewline, hoccurs⟩
    exact ⟨fetch_hostname (head?_attempts_anyHost hbucket hslash hoccurs),
      extractFilepath_prependHttpsToPath hbucket hslash hnewline hoccurs⟩

theorem extractHostAndFilepath_simple :
    extractHostAndFilepath .lineFeed (prependHttpsToPath .ireland (ascii "bucket") (ascii "/a")) =
      (some (getS3HostNameByRegion .ireland (ascii "bucket")), some (ascii "/a")) :=
  (extractHostAndFilepath_iff .lineFeed .ireland (by decide +kernel) (by decide +kernel)).2
    ⟨by decide +kernel, by decide +kernel⟩

/-- A file name that contains a host name. -/
theorem extractHostAndFilepath_host :
    ¬ ∀ (nl : Newlines) (region : BucketRegion) (bucket path : Bytes),
      (∀ ch ∈ bucket, isBucket ch = true) → path.head? = some 47 →
        extractHostAndFilepath nl (prependHttpsToPath region bucket path) =
          (some (getS3HostNameByRegion region bucket), some path) := by
  intro h
  have hfalse := h .lineFeed .ireland (ascii "bucket") (ascii "/x.amazonaws.com/y")
    (by decide +kernel) (by decide +kernel)
  revert hfalse
  decide +kernel

end AwsS3fs
