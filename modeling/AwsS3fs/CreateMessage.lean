/-
**The `CREATE` request and what the server reads from it.**

`CreateCachedFile` prints seven numbers, padded to fixed widths, and a path.
`ClientRequestsCreate` (`filecache.c`) searches the text for an expression that has a group for
each of them, converts the groups to numbers, and passes the path on without the white space around
it.  The expression is not anchored, and it bounds the number of digits of every group.

Two things are left open.  `TrimString` releases the memory of the path, and the directory of the
path is taken from that memory afterwards; `released` says what it reads as then.  And the
characters that end a line, which `.` does not match, depend on how the library was built; they are
white space in any case.  Texts are matched byte by byte: line ends and white space of more than one
byte are left out.

Main definitions:

* `AwsS3fs.Newlines`, `AwsS3fs.trimString`, `AwsS3fs.pathGetDirname` — the library, as far as it is
  used;
* `AwsS3fs.createFileOptions` — the expression;
* `AwsS3fs.clientRequestsCreate` — what is passed to `CreateLocalDir` and `CreateLocalFile`;
* `AwsS3fs.CreateRequest.Fits` — the numbers that the expression has room for.

Main results:

* `AwsS3fs.search_createFileOptions` — the groups of a request whose numbers fit;
* `AwsS3fs.groups_of_search` — the groups of any request;
* `AwsS3fs.filename_of_fits` — the name of the file is the path without the white space around it;
* `AwsS3fs.roundTrips_iff` — **when the server gets what the client has sent**.
-/

import AwsS3fs.CacheCommands
import AwsS3fs.Lib.Regex

set_option relaxedAutoImplicit false
set_option autoImplicit false

namespace AwsS3fs

open CLib

/-! ### The library -/

/-- The bytes that end a line, as the library was configured. -/
structure Newlines where
  isNewline : UInt8 → Bool
  isspace_of_isNewline : ∀ ch, isNewline ch = true → isspace ch = true

/-- A line feed ends a line, and nothing else does. -/
def Newlines.lineFeed : Newlines where
  isNewline ch := ch == 10
  isspace_of_isNewline := by
    intro ch hch
    rw [beq_iff_eq.1 hch]
    rfl

/-- `TrimString`: every match of `^[\s]+|[\s]+$` is removed. -/
def trimString (nl : Newlines) (original : Bytes) : Bytes :=
  (Regex.trim isspace nl.isNewline).replace [] original

/-- `g_path_get_dirname`: the path up to its last slash, without the slashes at the end. -/
def pathGetDirname (path : Bytes) : Bytes :=
  if 47 ∈ path then
    let directory := (path.rdropWhile (· ≠ 47)).rdropWhile (· = 47)
    if directory = [] then [47] else directory
  else ascii "."

/-- The directory of a path as `ClientRequestsCreate` takes it. -/
def parentdir (path : Bytes) : Bytes :=
  if pathGetDirname path = ascii "." then ascii "/" else pathGetDirname path

/-! ### The expression -/

/-- `([0-9]{1,hi})\s*:\s*`, group `n`. -/
def numberOption (n hi : ℕ) : Regex UInt8 :=
  .seq (.group n (.run isdigit 1 (some hi)))
    (.seq (.run isspace 0 none) (.seq (.run (· == 58) 1 (some 1)) (.run isspace 0 none)))

/-- Numbers, given by their groups and their digits at most, and then `last`. -/
def numberOptions (limits : List (ℕ × ℕ)) (last : Regex UInt8) : Regex UInt8 :=
  limits.foldr (fun limit r => .seq (numberOption limit.1 limit.2) r) last

/-- The numbers of a `CREATE` request. -/
def createLimits : List (ℕ × ℕ) := [(1, 5), (2, 5), (3, 3), (4, 5), (5, 5), (6, 3), (7, 20)]

/-- `(.+)`, group `8`. -/
def pathOption (nl : Newlines) : Regex UInt8 := .group 8 (.run (!nl.isNewline ·) 1 none)

/-- The expression for the parameters of a `CREATE` request. -/
def createFileOptions (nl : Newlines) : Regex UInt8 := numberOptions createLimits (pathOption nl)

/-! ### The server -/

/-- The arguments of `CreateLocalDir`. -/
structure DirArguments where
  path : Bytes
  uid : ℤ
  gid : ℤ
  permissions : ℤ
  deriving DecidableEq

/-- The arguments of `CreateLocalFile` that a request determines. -/
structure FileArguments where
  path : Bytes
  uid : ℤ
  gid : ℤ
  permissions : ℤ
  mtime : ℤ
  deriving DecidableEq

/-- What a `CREATE` request comes to. -/
inductive CreateOutcome
  | error (reply : Bytes)
  | create (dir : DirArguments) (file : FileArguments)
  deriving DecidableEq

/-- `ClientRequestsCreate`, up to the calls of `CreateLocalDir` and `CreateLocalFile`. -/
def clientRequestsCreate (nl : Newlines) (released : Bytes → Bytes) (request : Bytes) :
    CreateOutcome :=
  match (createFileOptions nl).search true request with
  | none => .error (ascii "ERROR: cannot parse request parameters")
  | some (_, found) =>
      .create
        { path := parentdir (released (found.fetch 8))
          uid := atoi (found.fetch 1)
          gid := atoi (found.fetch 2)
          permissions := atoi (found.fetch 3) }
        { path := trimString nl (found.fetch 8)
          uid := atoi (found.fetch 4)
          gid := atoi (found.fetch 5)
          permissions := atoi (found.fetch 6)
          mtime := atoll (found.fetch 7) }

variable {nl : Newlines} {released : Bytes → Bytes} {f : CreateRequest}

/-! ### Trimming -/

/-- No white space around a text. -/
def Bare (s : Bytes) : Prop :=
  (∀ c ∈ s.head?, isspace c = false) ∧ ∀ c ∈ s.getLast?, isspace c = false

instance (s : Bytes) : Decidable (Bare s) :=
  inferInstanceAs (Decidable ((∀ c ∈ s.head?, isspace c = false) ∧
    ∀ c ∈ s.getLast?, isspace c = false))

theorem trimString_eq (s : Bytes) :
    trimString nl s = (s.dropWhile isspace).rdropWhile isspace :=
  Regex.replace_trim nl.isspace_of_isNewline

theorem mem_of_mem_trimString {s : Bytes} {c : UInt8} (h : c ∈ trimString nl s) : c ∈ s := by
  rw [trimString_eq] at h
  exact (List.dropWhile_suffix _).mem ((List.rdropWhile_prefix _ _).mem h)

theorem bare_trimString (s : Bytes) : Bare (trimString nl s) := by
  rw [trimString_eq]
  constructor
  · intro c hc
    obtain ⟨t, ht⟩ := List.rdropWhile_prefix isspace (s.dropWhile isspace)
    refine Regex.not_of_head?_dropWhile (s := s) ?_
    rw [← ht, List.head?_append, Option.mem_def.1 hc]
    rfl
  · intro c hc
    obtain ⟨hne, rfl⟩ := List.mem_getLast?_eq_getLast hc
    simpa using List.rdropWhile_last_not isspace _ hne

theorem trimString_of_head? {s : Bytes} (h : ∀ c ∈ s.head?, isspace c = false) :
    trimString nl s = s.rdropWhile isspace := by
  cases s with
  | nil => rw [trimString_eq, List.dropWhile_nil]
  | cons c s => rw [trimString_eq, List.dropWhile_cons_of_neg (by simp [h c rfl])]

theorem Bare.trimString_eq_self {s : Bytes} (h : Bare s) : trimString nl s = s := by
  rw [trimString_of_head? h.1, List.rdropWhile_eq_self_iff]
  intro hne
  simpa using h.2 _ (List.getLast?_eq_getLast_of_ne_nil hne)

theorem trimString_eq_nil {s : Bytes} (h : ∀ c ∈ s, isspace c = true) : trimString nl s = [] := by
  rw [trimString_eq, List.dropWhile_eq_nil_iff.2 h, List.rdropWhile_nil]

/-! ### The groups of a request whose numbers fit -/

/-- A number that a group has room for. -/
def Room (limit : ℕ × ℕ) (field : ℕ × ℤ) : Prop :=
  0 < limit.2 ∧ 0 ≤ field.2 ∧ field.2 < 10 ^ limit.2

theorem Room.digits {limit : ℕ × ℕ} {field : ℕ × ℤ} (h : Room limit field) :
    formatInt field.2 ≠ [] ∧ (formatInt field.2).length ≤ limit.2 ∧
      ∀ d ∈ formatInt field.2, isdigit d = true := by
  obtain ⟨hpos, hnonneg, hlt⟩ := h
  obtain ⟨n, hn⟩ := Int.eq_ofNat_of_zero_le hnonneg
  rw [hn] at hlt ⊢
  exact ⟨formatInt_ne_nil n, length_formatInt_le hpos (by exact_mod_cast hlt),
    fun d hd => isdigit_of_mem_formatInt hd⟩

theorem formatFields_cons (field : ℕ × ℤ) (fields : List (ℕ × ℤ)) (s : Bytes) :
    formatFields (field :: fields) ++ s =
      List.replicate (field.1 - (formatInt field.2).length) 32 ++
        (formatInt field.2 ++ 58 :: (formatFields fields ++ s)) := by
  simp [formatFields, padInt]

/-- The first attempt at a number takes its digits and the white space up to what comes next. -/
theorem head?_attempts_numberOption {n hi : ℕ} {first : Bool} {ds ws rest : Bytes} (hne : ds ≠ [])
    (hlen : ds.length ≤ hi) (hds : ∀ d ∈ ds, isdigit d = true) (hws : ∀ c ∈ ws, isspace c = true)
    (hrest : ∀ c ∈ rest.head?, isspace c = false) :
    ((numberOption n hi).attempts first (ds ++ 58 :: (ws ++ rest))).head? =
      some ⟨ds ++ 58 :: ws, [(n, ds)], rest⟩ := by
  have hnumber : ((Regex.group n (.run isdigit 1 (some hi))).attempts first
      (ds ++ 58 :: (ws ++ rest))).head? = some ⟨ds, [(n, ds)], 58 :: (ws ++ rest)⟩ :=
    Regex.head?_attempts_group (Regex.head?_attempts_run (List.length_pos_iff.2 hne)
      (by simpa using hlen) hds (.inr (by simp [isdigit])))
  have hbefore : ∀ first, ((Regex.run isspace 0 none).attempts first
      ([] ++ 58 :: (ws ++ rest))).head? = some ⟨[], [], 58 :: (ws ++ rest)⟩ :=
    fun _ => Regex.head?_attempts_run (by simp) (by simp) (by simp) (.inr (by simp [isspace]))
  have hcolon : ∀ first, ((Regex.run (· == 58) 1 (some 1)).attempts first
      ([58] ++ (ws ++ rest))).head? = some ⟨[58], [], ws ++ rest⟩ :=
    fun _ => Regex.head?_attempts_run (by simp) (by simp) (by simp) (.inl rfl)
  have hafter : ∀ first, ((Regex.run isspace 0 none).attempts first (ws ++ rest)).head? =
      some ⟨ws, [], rest⟩ :=
    fun _ => Regex.head?_attempts_run (by simp) (by simp) hws (.inr hrest)
  rw [numberOption, Regex.head?_attempts_seq hnumber (Regex.head?_attempts_seq (hbefore _)
    (Regex.head?_attempts_seq (hcolon _) (hafter _)))]
  simp [Regex.Match.append]

/-- A number does not start with a character that is not a digit. -/
theorem attempts_numberOptions_eq_nil {limit : ℕ × ℕ} {limits : List (ℕ × ℕ)}
    {last : Regex UInt8} {first : Bool} {c : UInt8} {s : Bytes} (hc : isdigit c = false) :
    (numberOptions (limit :: limits) last).attempts first (c :: s) = [] := by
  refine Regex.attempts_seq_eq_nil (Regex.attempts_seq_eq_nil ?_)
  rw [Regex.attempts, Regex.attempts_run_eq_nil Nat.one_pos hc, List.map_nil]

/-- **The groups of the numbers**, if every number fits: they are the numbers.  By induction on the
numbers; the white space before each of them goes to the attempt for the one before. -/
theorem head?_attempts_numberOptions {last : Regex UInt8} {w q : Bytes} {m : Regex.Match UInt8}
    (hw : ∀ c ∈ w, isspace c = true) (hq : ∀ c ∈ q.head?, isspace c = false)
    (hlast : ∀ first, (last.attempts first q).head? = some m) {limits : List (ℕ × ℕ)}
    {fields : List (ℕ × ℤ)} (hfields : List.Forall₂ Room limits fields) :
    ∀ {limit : ℕ × ℕ} {field : ℕ × ℤ} (first : Bool), Room limit field →
      ∃ text, text ≠ [] ∧ ((numberOptions (limit :: limits) last).attempts first
        (formatInt field.2 ++ 58 :: (formatFields fields ++ (w ++ q)))).head? =
          some ⟨text, List.zipWith (fun limit field => (limit.1, formatInt field.2))
            (limit :: limits) (field :: fields) ++ m.groups, m.rest⟩ := by
  induction hfields with
  | nil =>
      intro limit field first hroom
      obtain ⟨hne, hlen, hds⟩ := hroom.digits
      refine ⟨_, ?_, Regex.head?_attempts_seq
        (head?_attempts_numberOption hne hlen hds hw hq) (hlast _)⟩
      simp [hne]
  | @cons limit' field' limits fields hroom' _ ih =>
      intro limit field first hroom
      obtain ⟨hne, hlen, hds⟩ := hroom.digits
      obtain ⟨hne', -, hds'⟩ := hroom'.digits
      have hrest : ∀ c ∈ (formatInt field'.2 ++ 58 :: (formatFields fields ++ (w ++ q))).head?,
          isspace c = false := by
        intro c hc
        rw [List.head?_append_of_ne_nil _ hne'] at hc
        exact isspace_of_isdigit (hds' c (List.mem_of_mem_head? hc))
      obtain ⟨text, -, hhead⟩ := ih _ hroom'
      rw [formatFields_cons]
      refine ⟨_, ?_, Regex.head?_attempts_seq (head?_attempts_numberOption hne hlen hds
        (fun c hc => by rw [List.eq_of_mem_replicate hc]; rfl) hrest) hhead⟩
      simp [hne]

/-- The search for numbers that fit begins at the first of them. -/
theorem search_numberOptions {last : Regex UInt8} {w q : Bytes} {m : Regex.Match UInt8}
    (hw : ∀ c ∈ w, isspace c = true) (hq : ∀ c ∈ q.head?, isspace c = false)
    (hlast : ∀ first, (last.attempts first q).head? = some m) {limits : List (ℕ × ℕ)}
    {fields : List (ℕ × ℤ)} (hfields : List.Forall₂ Room limits fields) (hne : limits ≠ []) :
    ∃ before text, (numberOptions limits last).search true (formatFields fields ++ (w ++ q)) =
      some (before, ⟨text, List.zipWith (fun limit field => (limit.1, formatInt field.2))
        limits fields ++ m.groups, m.rest⟩) := by
  cases hfields with
  | nil => exact absurd rfl hne
  | @cons limit field limits fields hroom hfields =>
      obtain ⟨text, htext, hhead⟩ := head?_attempts_numberOptions hw hq hlast hfields _ hroom
      rw [formatFields_cons, Regex.search_append, Regex.search_of_head? hhead htext]
      · exact ⟨_, text, rfl⟩
      · intro c hc first s
        rw [List.eq_of_mem_replicate hc]
        exact attempts_numberOptions_eq_nil rfl

variable (nl) in
/-- **The groups of a request whose numbers fit**: the numbers, and the path from its first
character that is not white space up to the end of the line. -/
theorem search_createFileOptions (hfields : List.Forall₂ Room createLimits f.fields) {w q : Bytes}
    (hpath : f.path = w ++ q) (hw : ∀ c ∈ w, isspace c = true) (hne : q ≠ [])
    (hq : ∀ c ∈ q.head?, isspace c = false) :
    ∃ before text rest, (createFileOptions nl).search true f.parameters =
      some (before, ⟨text, List.zipWith (fun limit field => (limit.1, formatInt field.2))
        createLimits f.fields ++ [(8, q.takeWhile (!nl.isNewline ·))], rest⟩) := by
  have hlast : ∀ first, ((pathOption nl).attempts first q).head? =
      some ⟨q.takeWhile (!nl.isNewline ·), [(8, q.takeWhile (!nl.isNewline ·))],
        q.dropWhile (!nl.isNewline ·)⟩ := by
    intro first
    refine Regex.head?_attempts_group (Regex.head?_attempts_run_none ?_)
    obtain ⟨c, q, rfl⟩ := List.exists_cons_of_ne_nil hne
    have hc : nl.isNewline c = false := by
      by_contra hnewline
      rw [Bool.not_eq_false] at hnewline
      have hspace := nl.isspace_of_isNewline c hnewline
      rw [hq c rfl] at hspace
      cases hspace
    simp [hc]
  obtain ⟨before, text, hsearch⟩ := search_numberOptions hw hq hlast hfields (by decide)
  rw [CreateRequest.parameters, hpath]
  exact ⟨before, text, _, hsearch⟩

/-! ### The groups of any request -/

/-- Digits that a group can have. -/
def Digits (limit : ℕ × ℕ) (ds : Bytes) : Prop :=
  ds.length ≤ limit.2 ∧ ∀ d ∈ ds, isdigit d = true

theorem groups_of_numberOption {n hi : ℕ} {first : Bool} {s : Bytes} {m : Regex.Match UInt8}
    (h : m ∈ (numberOption n hi).attempts first s) :
    ∃ ds, Digits (n, hi) ds ∧ m.groups = [(n, ds)] ∧ 1 ≤ m.text.count 58 := by
  obtain ⟨m₁, h₁, m₂, h₂, rfl⟩ := Regex.mem_attempts_seq.1 h
  obtain ⟨m₃, h₃, m₄, h₄, rfl⟩ := Regex.mem_attempts_seq.1 h₂
  obtain ⟨m₅, h₅, m₆, h₆, rfl⟩ := Regex.mem_attempts_seq.1 h₄
  obtain ⟨digits, hdigits, rfl⟩ := Regex.mem_attempts_group.1 h₁
  obtain ⟨-, hgroups, -, hhi, hds⟩ := Regex.mem_attempts_run.1 hdigits
  obtain ⟨-, hgroups₃, -⟩ := Regex.mem_attempts_run.1 h₃
  obtain ⟨-, hgroups₅, hlo, -, hcolon⟩ := Regex.mem_attempts_run.1 h₅
  obtain ⟨-, hgroups₆, -⟩ := Regex.mem_attempts_run.1 h₆
  refine ⟨digits.text, ⟨hhi hi rfl, hds⟩, ?_, ?_⟩
  · simp [Regex.Match.append, hgroups, hgroups₃, hgroups₅, hgroups₆]
  · obtain ⟨c, text, htext⟩ := List.exists_cons_of_ne_nil (List.length_pos_iff.1 hlo)
    obtain rfl : c = 58 := by simpa using hcolon c (by simp [htext])
    simp only [Regex.Match.append, htext, List.count_append, List.count_cons_self]
    omega

/-- By induction on the numbers: each of them takes at least one of the colons. -/
theorem groups_of_numberOptions {last : Regex UInt8} {limits : List (ℕ × ℕ)} :
    ∀ {first : Bool} {s : Bytes} {m : Regex.Match UInt8},
      m ∈ (numberOptions limits last).attempts first s →
        ∃ ds x m' first', List.Forall₂ Digits limits ds ∧
          m' ∈ last.attempts first' (m'.text ++ m'.rest) ∧
          m.groups = List.zipWith (fun limit d => (limit.1, d)) limits ds ++ m'.groups ∧
          s = x ++ (m'.text ++ m'.rest) ∧ limits.length ≤ x.count 58 := by
  induction limits with
  | nil =>
      intro first s m h
      have hs := Regex.eq_append_of_mem_attempts h
      exact ⟨[], [], m, first, .nil, hs ▸ h, rfl, hs, by simp⟩
  | cons limit limits ih =>
      intro first s m h
      obtain ⟨m₁, h₁, m₂, h₂, rfl⟩ := Regex.mem_attempts_seq.1 h
      obtain ⟨d, hd, hgroups₁, hcount₁⟩ := groups_of_numberOption h₁
      obtain ⟨ds, x, m', first', hds, hm', hgroups, hs, hcount⟩ := ih h₂
      refine ⟨d :: ds, m₁.text ++ x, m', first', .cons hd hds, hm', ?_, ?_, ?_⟩
      · rw [Regex.Match.append, hgroups₁, hgroups]
        rfl
      · rw [Regex.eq_append_of_mem_attempts h₁, hs, List.append_assoc]
      · rw [List.count_append, List.length_cons]
        omega

/-- **The groups of any request**: digits, no more than there is room for, and a text without an
end of line that comes after all of the colons of the expression. -/
theorem groups_of_search {s before : Bytes} {m : Regex.Match UInt8}
    (h : (createFileOptions nl).search true s = some (before, m)) :
    ∃ ds x path rest, List.Forall₂ Digits createLimits ds ∧
      m.groups = List.zipWith (fun limit d => (limit.1, d)) createLimits ds ++ [(8, path)] ∧
      path ≠ [] ∧ (∀ c ∈ path, nl.isNewline c = false) ∧
      s = x ++ (path ++ rest) ∧ 7 ≤ x.count 58 := by
  obtain ⟨hs, -, hm⟩ := Regex.search_spec h
  obtain ⟨ds, x, m', first', hds, hm', hgroups, hx, hcount⟩ := groups_of_numberOptions hm
  obtain ⟨m'', hm'', rfl⟩ := Regex.mem_attempts_group.1 hm'
  obtain ⟨-, hnone, hlo, -, hnewline⟩ := Regex.mem_attempts_run.1 hm''
  rw [hnone, List.nil_append] at hgroups
  refine ⟨ds, before ++ x, m''.text, m''.rest, hds, hgroups, List.length_pos_iff.1 hlo,
    by simpa using hnewline, ?_, ?_⟩
  · rw [hs, List.append_assoc, hx, List.append_assoc]
  · rw [List.count_append]
    exact Nat.le_add_left_of_le hcount

theorem count_formatFields (fields : List (ℕ × ℤ)) :
    (formatFields fields).count 58 = fields.length := by
  have hnumber : ∀ n : ℤ, (formatInt n).count 58 = 0 := by
    intro n
    rw [List.count_eq_zero]
    intro hmem
    obtain ⟨ds, hds, h | h⟩ := formatInt_cases n
    · exact absurd (hds 58 (h ▸ hmem)) (by decide)
    · rcases List.mem_cons.1 (h ▸ hmem) with h | h
      · exact absurd h (by decide)
      · exact absurd (hds 58 h) (by decide)
  induction fields with
  | nil => rfl
  | cons field fields ih =>
      have hcons := formatFields_cons field fields []
      rw [List.append_nil, List.append_nil] at hcons
      simp [hcons, hnumber, ih, List.count_replicate]

theorem formatFields_eq_append {fields : List (ℕ × ℤ)} (hne : fields ≠ []) :
    ∃ numbers, formatFields fields = numbers ++ [58] := by
  obtain ⟨fields, field, rfl⟩ := (List.eq_nil_or_concat fields).resolve_left hne
  refine ⟨formatFields fields ++ padInt field.1 field.2, ?_⟩
  rw [List.concat_eq_append, formatFields, List.flatMap_append, List.flatMap_singleton,
    ← List.append_assoc, formatFields]

/-- What comes after as many colons as there are numbers lies in the path. -/
theorem mem_path_of_group {x path rest : Bytes} (hs : f.parameters = x ++ (path ++ rest))
    (hcount : 7 ≤ x.count 58) {c : UInt8} (hc : c ∈ path) : c ∈ f.path := by
  have hfields : (formatFields f.fields).count 58 = 7 := count_formatFields f.fields
  rw [CreateRequest.parameters] at hs
  rcases List.append_eq_append_iff.1 hs with ⟨y, hx, hrest⟩ | ⟨y, hx, hrest⟩
  · rw [hrest]
    exact List.mem_append_right y (List.mem_append_left rest hc)
  · rcases List.eq_nil_or_concat y with rfl | ⟨z, d, rfl⟩
    · rw [List.nil_append] at hrest
      exact hrest ▸ List.mem_append_left rest hc
    · -- the numbers end with a colon, and it would be one more than there are
      have hne : f.fields ≠ [] := List.cons_ne_nil _ _
      obtain ⟨numbers, hnumbers⟩ := formatFields_eq_append hne
      rw [hnumbers, List.concat_eq_append, ← List.append_assoc] at hx
      obtain ⟨hx, hd⟩ := List.append_inj' hx rfl
      rw [hnumbers, hx, List.count_append, List.count_append, List.count_singleton_self] at hfields
      omega

/-! ### What the server gets -/

/-- The numbers that the expression has room for. -/
structure CreateRequest.Fits (f : CreateRequest) : Prop where
  parentUid : f.parentUid.toNat < 10 ^ 5
  parentGid : f.parentGid.toNat < 10 ^ 5
  parentPermissions : 0 ≤ f.parentPermissions.toInt ∧ f.parentPermissions.toInt < 10 ^ 3
  uid : f.uid.toNat < 10 ^ 5
  gid : f.gid.toNat < 10 ^ 5
  permissions : 0 ≤ f.permissions.toInt ∧ f.permissions.toInt < 10 ^ 3
  mtime : 0 ≤ f.mtime.toInt

theorem wrapInt_of_lt_pow {n : ℕ} (h : n < 10 ^ 5) : wrapInt n = n :=
  wrapInt_of_lt (by omega) (by omega)

theorem CreateRequest.Fits.room (h : f.Fits) : List.Forall₂ Room createLimits f.fields := by
  have hmtime : f.mtime.toInt < 10 ^ 20 := lt_trans f.mtime.toInt_lt (by decide)
  have hid : ∀ {n : ℕ}, n < 10 ^ 5 → ∀ i : ℕ, Room (i, 5) (5, wrapInt n) := by
    intro n hn i
    have hlt : (n : ℤ) < 10 ^ 5 := by exact_mod_cast hn
    rw [Room, wrapInt_of_lt_pow hn]
    exact ⟨Nat.succ_pos 4, Int.natCast_nonneg n, hlt⟩
  exact .cons (hid h.parentUid 1) (.cons (hid h.parentGid 2)
    (.cons ⟨by omega, h.parentPermissions⟩ (.cons (hid h.uid 4) (.cons (hid h.gid 5)
      (.cons ⟨by omega, h.permissions⟩ (.cons ⟨by omega, h.mtime, hmtime⟩ .nil))))))

theorem atoi_formatInt {n : ℤ} (h₀ : 0 ≤ n) (h : n < 10 ^ 5) : atoi (formatInt n) = n := by
  obtain ⟨k, rfl⟩ := Int.eq_ofNat_of_zero_le h₀
  have hlen : (formatInt k).length ≤ 5 := length_formatInt_le (by omega) (by exact_mod_cast h)
  rw [atoi_eq_decimalValue (fun d hd => isdigit_of_mem_formatInt hd) (by omega),
    decimalValue_formatInt]

theorem atoll_formatInt {n : ℤ} (h₀ : 0 ≤ n) (h : n < 2 ^ 63) : atoll (formatInt n) = n := by
  obtain ⟨k, rfl⟩ := Int.eq_ofNat_of_zero_le h₀
  rw [atoll, decimalValue_formatInt]
  omega

/-- What a request comes to, by the groups that were found. -/
theorem clientRequestsCreate_of_search {request before : Bytes} {m : Regex.Match UInt8}
    {d₁ d₂ d₃ d₄ d₅ d₆ d₇ path : Bytes}
    (hsearch : (createFileOptions nl).search true request = some (before, m))
    (hgroups : m.groups =
      [(1, d₁), (2, d₂), (3, d₃), (4, d₄), (5, d₅), (6, d₆), (7, d₇), (8, path)]) :
    clientRequestsCreate nl released request =
      .create ⟨parentdir (released path), atoi d₁, atoi d₂, atoi d₃⟩
        ⟨trimString nl path, atoi d₄, atoi d₅, atoi d₆, atoll d₇⟩ := by
  rw [clientRequestsCreate, hsearch]
  simp [Regex.Match.fetch, hgroups]

/-- Numbers that a request can come to. -/
structure Bounded (dir : DirArguments) (file : FileArguments) : Prop where
  dirUid : 0 ≤ dir.uid ∧ dir.uid < 10 ^ 5
  dirGid : 0 ≤ dir.gid ∧ dir.gid < 10 ^ 5
  dirPermissions : 0 ≤ dir.permissions ∧ dir.permissions < 10 ^ 3
  fileUid : 0 ≤ file.uid ∧ file.uid < 10 ^ 5
  fileGid : 0 ≤ file.gid ∧ file.gid < 10 ^ 5
  filePermissions : 0 ≤ file.permissions ∧ file.permissions < 10 ^ 3
  fileMtime : 0 ≤ file.mtime

theorem atoi_bounds {n hi : ℕ} {ds : Bytes} (h : Digits (n, hi) ds) (hhi : hi ≤ 9) :
    0 ≤ atoi ds ∧ atoi ds < 10 ^ hi := by
  have hlt := decimalValue_lt h.2
  have hpow : 10 ^ ds.length ≤ 10 ^ hi := Nat.pow_le_pow_right (by omega) h.1
  rw [atoi_eq_decimalValue h.2 (h.1.trans hhi)]
  exact ⟨by omega, by exact_mod_cast hlt.trans_le hpow⟩

/-- **What any request comes to**: bounded numbers, and a text of the path that does not end a
line. -/
theorem bounded_of_create {dir : DirArguments} {file : FileArguments}
    (h : clientRequestsCreate nl released f.parameters = .create dir file) :
    Bounded dir file ∧ ∃ path, path ≠ [] ∧ (∀ c ∈ path, c ∈ f.path ∧ nl.isNewline c = false) ∧
      dir.path = parentdir (released path) ∧ file.path = trimString nl path := by
  cases hsearch : (createFileOptions nl).search true f.parameters with
  | none =>
      rw [clientRequestsCreate, hsearch] at h
      cases h
  | some found =>
      obtain ⟨before, m⟩ := found
      obtain ⟨ds, x, path, rest, hds, hgroups, hne, hnewline, hs, hcount⟩ :=
        groups_of_search hsearch
      rcases hds with _ | ⟨h₁, _ | ⟨h₂, _ | ⟨h₃, _ | ⟨h₄, _ | ⟨h₅, _ | ⟨h₆, _ | ⟨h₇, _ | _⟩⟩⟩⟩⟩⟩⟩
      rw [clientRequestsCreate_of_search hsearch hgroups, CreateOutcome.create.injEq] at h
      obtain ⟨rfl, rfl⟩ := h
      refine ⟨?_, path, hne, fun c hc => ⟨mem_path_of_group hs hcount hc, hnewline c hc⟩, rfl, rfl⟩
      exact
        { dirUid := atoi_bounds h₁ (by omega)
          dirGid := atoi_bounds h₂ (by omega)
          dirPermissions := atoi_bounds h₃ (by omega)
          fileUid := atoi_bounds h₄ (by omega)
          fileGid := atoi_bounds h₅ (by omega)
          filePermissions := atoi_bounds h₆ (by omega)
          fileMtime := le_min (by omega) (by omega) }

/-- What a request whose numbers fit comes to. -/
theorem clientRequestsCreate_of_fits (hfits : f.Fits) {w q : Bytes}
    (hpath : f.path = w ++ q) (hw : ∀ c ∈ w, isspace c = true) (hne : q ≠ [])
    (hq : ∀ c ∈ q.head?, isspace c = false) :
    clientRequestsCreate nl released f.parameters =
      .create
        ⟨parentdir (released (q.takeWhile (!nl.isNewline ·))), f.parentUid.toNat, f.parentGid.toNat,
          f.parentPermissions.toInt⟩
        ⟨trimString nl (q.takeWhile (!nl.isNewline ·)), f.uid.toNat, f.gid.toNat,
          f.permissions.toInt, f.mtime.toInt⟩ := by
  obtain ⟨before, text, rest, hsearch⟩ := search_createFileOptions nl hfits.room hpath hw hne hq
  have hid : ∀ {n : ℕ}, n < 10 ^ 5 → atoi (formatInt (wrapInt n)) = n := by
    intro n hn
    rw [wrapInt_of_lt_pow hn, atoi_formatInt (by omega) (by exact_mod_cast hn)]
  have hpermissions : ∀ {n : ℤ}, 0 ≤ n ∧ n < 10 ^ 3 → atoi (formatInt n) = n :=
    fun h => atoi_formatInt h.1 (by omega)
  rw [clientRequestsCreate_of_search hsearch rfl, hid hfits.parentUid, hid hfits.parentGid,
    hpermissions hfits.parentPermissions, hid hfits.uid, hid hfits.gid,
    hpermissions hfits.permissions, atoll_formatInt hfits.mtime f.mtime.toInt_lt]

/-- What comes after the end of a line was white space. -/
theorem trimString_takeWhile {s : Bytes} (hs : ∀ c ∈ s.head?, isspace c = false)
    (hnewline : ∀ c ∈ trimString nl s, nl.isNewline c = false) :
    trimString nl (s.takeWhile (!nl.isNewline ·)) = trimString nl s := by
  have hhead : ∀ c ∈ (s.takeWhile (!nl.isNewline ·)).head?, isspace c = false := by
    intro c hc
    obtain ⟨t, ht⟩ := List.takeWhile_prefix (!nl.isNewline ·) (l := s)
    exact hs c (by rw [← ht, List.head?_append, Option.mem_def.1 hc]; rfl)
  rw [trimString_of_head? hs] at hnewline ⊢
  rw [trimString_of_head? hhead]
  -- the text is what is left after trimming and then white space, of which a part is taken
  obtain ⟨w, hw, hs'⟩ : ∃ w, (∀ c ∈ w, isspace c = true) ∧ s = s.rdropWhile isspace ++ w :=
    ⟨s.rtakeWhile isspace, fun c hc => List.mem_rtakeWhile_imp hc,
      List.rdropWhile_append_rtakeWhile.symm⟩
  have htake : s.takeWhile (!nl.isNewline ·) =
      s.rdropWhile isspace ++ w.takeWhile (!nl.isNewline ·) := by
    conv_lhs => rw [hs']
    exact List.takeWhile_append_of_pos (by simpa using hnewline)
  rw [htake, List.rdropWhile, List.reverse_append, List.dropWhile_append_of_pos]
  · exact List.rdropWhile_idempotent isspace s
  · intro c hc
    exact hw c ((List.takeWhile_prefix _).mem (List.mem_reverse.1 hc))

/-- **The name of the file is the path without the white space around it**, if the numbers fit and
the name does not end a line. -/
theorem filename_of_fits {dir : DirArguments} {file : FileArguments} (hfits : f.Fits)
    (hnewline : ∀ c ∈ trimString nl f.path, nl.isNewline c = false)
    (h : clientRequestsCreate nl released f.parameters = .create dir file) :
    file.path = trimString nl f.path := by
  by_cases hspace : ∀ c ∈ f.path, isspace c = true
  · -- whatever was found for the path is white space
    obtain ⟨-, path, -, hmem, -, hfile⟩ := bounded_of_create h
    rw [hfile, trimString_eq_nil fun c hc => hspace c (hmem c hc).1, trimString_eq_nil hspace]
  · have hsplit := List.takeWhile_append_dropWhile (p := isspace) (l := f.path)
    have hhead : ∀ c ∈ (f.path.dropWhile isspace).head?, isspace c = false :=
      fun c hc => Regex.not_of_head?_dropWhile hc
    have hdrop : f.path.dropWhile isspace ≠ [] := by
      rwa [Ne, List.dropWhile_eq_nil_iff]
    rw [clientRequestsCreate_of_fits hfits hsplit.symm (fun c hc => List.mem_takeWhile_imp hc) hdrop
      hhead, CreateOutcome.create.injEq] at h
    have htrim : trimString nl (f.path.dropWhile isspace) = trimString nl f.path := by
      rw [trimString_of_head? hhead, trimString_eq]
    rw [← h.2, ← htrim]
    exact trimString_takeWhile hhead (htrim.symm ▸ hnewline)

/-! ### The round trip -/

/-- The server rejects the request of `CreateCachedFile`, or it passes on what that was given. -/
def RoundTrips (nl : Newlines) (released : Bytes → Bytes) (f : CreateRequest) : Prop :=
  ∃ request, commandDispatcher (createCachedFile f) = some (.create, request) ∧
    ((∃ reply, clientRequestsCreate nl released request = .error reply ∧ ascii "ERROR" <+: reply) ∨
      clientRequestsCreate nl released request =
        .create
          ⟨parentdir f.path, f.parentUid.toNat, f.parentGid.toNat, f.parentPermissions.toInt⟩
          ⟨f.path, f.uid.toNat, f.gid.toNat, f.permissions.toInt, f.mtime.toInt⟩)

theorem exists_create {request : Bytes} (h : (createFileOptions nl).OccursIn true request) :
    ∃ dir file, clientRequestsCreate nl released request = .create dir file := by
  cases hsearch : (createFileOptions nl).search true request with
  | none => exact absurd h (Regex.search_eq_none_iff.1 hsearch)
  | some found =>
      rw [clientRequestsCreate, hsearch]
      exact ⟨_, _, rfl⟩

/-- A request is rejected if and only if the expression does not occur in it. -/
theorem clientRequestsCreate_eq_error_iff {request : Bytes} :
    (∃ reply, clientRequestsCreate nl released request = .error reply ∧ ascii "ERROR" <+: reply) ↔
      ¬ (createFileOptions nl).OccursIn true request := by
  constructor
  · rintro ⟨reply, hreply, -⟩ hoccurs
    obtain ⟨dir, file, hcreate⟩ := exists_create hoccurs
    rw [hcreate] at hreply
    cases hreply
  · intro hoccurs
    rw [clientRequestsCreate, Regex.search_eq_none_iff.2 hoccurs]
    exact ⟨_, rfl, _, rfl⟩

theorem lt_pow_of_cast {n : ℕ} (h : (n : ℤ) < 10 ^ 5) : n < 10 ^ 5 := by exact_mod_cast h

theorem fits_of_bounded {p₁ p₂ : Bytes}
    (h : Bounded ⟨p₁, f.parentUid.toNat, f.parentGid.toNat, f.parentPermissions.toInt⟩
      ⟨p₂, f.uid.toNat, f.gid.toNat, f.permissions.toInt, f.mtime.toInt⟩) : f.Fits where
  parentUid := lt_pow_of_cast h.dirUid.2
  parentGid := lt_pow_of_cast h.dirGid.2
  parentPermissions := h.dirPermissions
  uid := lt_pow_of_cast h.fileUid.2
  gid := lt_pow_of_cast h.fileGid.2
  permissions := h.filePermissions
  mtime := h.fileMtime

/-- A request that fits and has a path without white space around it. -/
theorem clientRequestsCreate_of_bare (hfits : f.Fits) (hbare : Bare f.path) (hne : f.path ≠ [])
    (hnewline : ∀ c ∈ f.path, nl.isNewline c = false) :
    clientRequestsCreate nl released f.parameters =
      .create
        ⟨parentdir (released f.path), f.parentUid.toNat, f.parentGid.toNat,
          f.parentPermissions.toInt⟩
        ⟨f.path, f.uid.toNat, f.gid.toNat, f.permissions.toInt, f.mtime.toInt⟩ := by
  have htake : f.path.takeWhile (!nl.isNewline ·) = f.path :=
    List.takeWhile_eq_self_iff.2 (by simpa using hnewline)
  rw [clientRequestsCreate_of_fits hfits (w := []) (q := f.path) rfl (by simp) hne hbare.1, htake,
    hbare.trimString_eq_self]

/-- **When the server gets what the client has sent.**  Either the parameters do not contain what
the server looks for, and the request is rejected; or every number fits, the path has neither white
space around it nor an end of line in it, and the memory of the path, although it was released, is
still in the same directory. -/
theorem roundTrips_iff :
    RoundTrips nl released f ↔
      ¬ (createFileOptions nl).OccursIn true f.parameters ∨
        f.Fits ∧ Bare f.path ∧ (∀ c ∈ f.path, nl.isNewline c = false) ∧
          parentdir (released f.path) = parentdir f.path := by
  constructor
  · rintro ⟨request, hrequest, h⟩
    rw [commandDispatcher_createCachedFile, Option.some_inj, Prod.mk.injEq] at hrequest
    obtain ⟨-, rfl⟩ := hrequest
    rw [clientRequestsCreate_eq_error_iff] at h
    refine h.imp_right fun hcreate => ?_
    obtain ⟨hbounded, path, hne, hmem, -, hfile⟩ := bounded_of_create hcreate
    have hfits := fits_of_bounded hbounded
    have hbare : Bare f.path := by
      rw [show f.path = trimString nl path from hfile]
      exact bare_trimString path
    have hnewline : ∀ c ∈ f.path, nl.isNewline c = false := by
      intro c hc
      rw [show f.path = trimString nl path from hfile] at hc
      exact (hmem c (mem_of_mem_trimString hc)).2
    have hpath : f.path ≠ [] := by
      obtain ⟨c, hc⟩ := List.exists_mem_of_ne_nil path hne
      exact List.ne_nil_of_mem (hmem c hc).1
    rw [clientRequestsCreate_of_bare hfits hbare hpath hnewline, CreateOutcome.create.injEq,
      DirArguments.mk.injEq] at hcreate
    exact ⟨hfits, hbare, hnewline, hcreate.1.1⟩
  · intro h
    refine ⟨f.parameters, commandDispatcher_createCachedFile f, ?_⟩
    rw [clientRequestsCreate_eq_error_iff]
    rcases h with hoccurs | ⟨hfits, hbare, hnewline, hdir⟩
    · exact .inl hoccurs
    · by_cases hpath : f.path = []
      · -- an empty path leaves nothing for the last group
        refine .inl fun hoccurs => ?_
        obtain ⟨dir, file, hcreate⟩ :
            ∃ dir file, clientRequestsCreate nl released f.parameters = .create dir file :=
          exists_create hoccurs
        obtain ⟨-, path, hne, hmem, -⟩ := bounded_of_create hcreate
        obtain ⟨c, hc⟩ := List.exists_mem_of_ne_nil path hne
        exact List.ne_nil_of_mem (hmem c hc).1 hpath
      · right
        rw [clientRequestsCreate_of_bare hfits hbare hpath hnewline, hdir]

/-- The request for a file in a directory of the user `4294967294`. -/
def CreateRequest.nobody : CreateRequest where
  path := ascii "a"
  parentUid := 4294967294
  parentGid := 0
  parentPermissions := 493
  uid := 1000
  gid := 1000
  permissions := 420
  mtime := 0

/-- It gives the directory to the user `2`. -/
theorem not_roundTrips_nobody : ¬ RoundTrips .lineFeed id .nobody := by
  rintro ⟨request, hrequest, h⟩
  rw [commandDispatcher_createCachedFile, Option.some_inj, Prod.mk.injEq] at hrequest
  obtain ⟨-, rfl⟩ := hrequest
  have hcreate : clientRequestsCreate .lineFeed id CreateRequest.nobody.parameters =
      .create ⟨ascii "/", 2, 0, 493⟩ ⟨ascii "a", 1000, 1000, 420, 0⟩ := by
    decide +kernel
  rw [hcreate] at h
  rcases h with ⟨reply, hreply, -⟩ | h
  · cases hreply
  · exact absurd (congrArg DirArguments.uid (CreateOutcome.create.inj h).1) (by decide)

end AwsS3fs
