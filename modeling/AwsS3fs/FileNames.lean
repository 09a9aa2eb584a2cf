/-
**Which file a path names.**

The commands of the cache find a file by its remote name in the table `files`.  Each of them makes
the name from its parameter in its own way: `ClientRequestsCreate` takes a group of an expression
and trims it, `ClientRequestsLocalFilename` trims the whole parameter, and `ClientRequestsDownload`
and `ClientRequestsFileClose` look up the parameter as it is.

Every client has a thread of the server to itself, and the queries are made one at a time, under a
mutex.  So a `CREATE` request is a sequence of queries, and between them come the queries of others.

Main definitions:

* `AwsS3fs.Names` — the tables `parents` and `files` with their constraints;
* `AwsS3fs.Names.findFile`, `AwsS3fs.Names.getLocalPath`, `AwsS3fs.Names.newParent`,
  `AwsS3fs.Names.newFile` — the queries;
* `AwsS3fs.Creator`, `AwsS3fs.createStep` — a `CREATE` request and its next query;
* `AwsS3fs.Server`, `AwsS3fs.serverStep` — **one step of the server**;
* `AwsS3fs.Names.resolve` — the row that a command works on.

Main results:

* `AwsS3fs.Names.resolve_remotename` — the name of the row that a command works on;
* `AwsS3fs.keeps_of_serverStep` — no row is taken away or renamed;
* `AwsS3fs.entered_of_serverStep` — a `CREATE` request ends with a row of its name;
* `AwsS3fs.resolves_created` — **the commands agree on the file that a path names**, up to the white
  space around it.
-/

import Mathlib.Data.List.Nodup
import AwsS3fs.CreateMessage
import AwsS3fs.Lib.Runs
import AwsS3fs.Lib.Threads

set_option relaxedAutoImplicit false
set_option autoImplicit false

namespace AwsS3fs

open CLib Runs Threads

/-! ### The tables -/

/-- A row of `parents`. -/
structure ParentEntry where
  id : ℤ
  remotename : Bytes
  localname : Bytes
  uid : ℤ
  gid : ℤ
  permissions : ℤ

/-- A row of `files`, with the columns that `Query_CreateLocalFile` writes. -/
structure FileEntry where
  id : ℤ
  bucket : Bytes
  remotename : Bytes
  localname : Bytes
  subscriptions : ℤ
  parent : ℤ
  uid : ℤ
  gid : ℤ
  permissions : ℤ
  mtime : ℤ
  deriving DecidableEq

/-- The two tables, with the constraints of the schema. -/
structure Names where
  parents : List ParentEntry
  files : List FileEntry
  id_pos : ∀ r ∈ files, 0 < r.id
  id_unique : (files.map (·.id)).Nodup
  remotename_unique : (files.map (·.remotename)).Nodup
  parent_known : ∀ r ∈ files, ∃ p ∈ parents, p.id = r.parent

/-- The identifier that SQLite gives to a new row. -/
def rowid (ids : List ℤ) : ℤ := ids.foldr max 0 + 1

theorem rowid_pos (ids : List ℤ) : 0 < rowid ids := by
  have hmax : 0 ≤ ids.foldr max 0 := by
    induction ids with
    | nil => exact le_refl 0
    | cons i ids ih => exact le_max_of_le_right ih
  rw [rowid]
  omega

theorem lt_rowid {ids : List ℤ} {i : ℤ} (hi : i ∈ ids) : i < rowid ids := by
  have hmax : i ≤ ids.foldr max 0 := by
    induction ids with
    | nil => cases hi
    | cons j ids ih =>
        rcases List.mem_cons.1 hi with rfl | hi
        · exact le_max_left _ _
        · exact le_max_of_le_right (ih hi)
  rw [rowid]
  omega

namespace Names

/-- The empty tables. -/
def empty : Names := ⟨[], [], by simp, by simp, by simp, by simp⟩

variable (names : Names)

/-! ### The queries -/

/-- The row that `FindFile` finds.  There is at most one, because the names are unique. -/
def findFile (path : Bytes) : Option FileEntry := names.files.find? (·.remotename = path)

/-- `FindParent`: the last row of the name, or `0`. -/
def findParent (path : Bytes) : ℤ :=
  ((names.parents.filter (·.remotename = path)).getLast?.map (·.id)).getD 0

/-- The rows of `parents` and of `files` that `Query_GetLocalPath` joins, the last ones it reads. -/
def getLocalPath (remotename : Bytes) : Option (ParentEntry × FileEntry) :=
  (names.parents.flatMap fun p =>
    (names.files.filter fun r => r.parent = p.id ∧ r.remotename = remotename).map (p, ·)).getLast?

/-- The insertion of `Query_CreateLocalDir`, and the identifier of the row. -/
def newParent (dir : DirArguments) (localname : Bytes) : Names × ℤ :=
  let id := rowid (names.parents.map (·.id))
  ({ names with
    parents := names.parents ++ [⟨id, dir.path, localname, dir.uid, dir.gid, dir.permissions⟩]
    parent_known := by
      intro r hr
      obtain ⟨p, hp, hid⟩ := names.parent_known r hr
      exact ⟨p, List.mem_append_left _ hp, hid⟩ }, id)

/-- The constraints on a new row of `files`. -/
def Creatable (path : Bytes) (parent : ℤ) : Prop :=
  (∀ r ∈ names.files, r.remotename ≠ path) ∧ ∃ p ∈ names.parents, p.id = parent

instance (path : Bytes) (parent : ℤ) : Decidable (names.Creatable path parent) :=
  inferInstanceAs (Decidable (_ ∧ _))

/-- A row of `files` is inserted. -/
def insertFile (r : FileEntry) (hid : r.id = rowid (names.files.map (·.id)))
    (h : names.Creatable r.remotename r.parent) : Names :=
  { names with
    files := names.files ++ [r]
    id_pos := by
      intro q hq
      rcases List.mem_append.1 hq with hq | hq
      · exact names.id_pos q hq
      · rw [List.mem_singleton.1 hq, hid]
        exact rowid_pos _
    id_unique := by
      rw [List.map_append, List.nodup_append]
      refine ⟨names.id_unique, by simp, ?_⟩
      intro i hi i' hi'
      rw [List.map_singleton, List.mem_singleton] at hi'
      rw [hi', hid]
      exact (lt_rowid hi).ne
    remotename_unique := by
      rw [List.map_append, List.nodup_append]
      refine ⟨names.remotename_unique, by simp, ?_⟩
      intro n hn n' hn'
      obtain ⟨q, hq, rfl⟩ := List.mem_map.1 hn
      rw [List.map_singleton, List.mem_singleton] at hn'
      rw [hn']
      exact h.1 q hq
    parent_known := by
      intro q hq
      rcases List.mem_append.1 hq with hq | hq
      · exact names.parent_known q hq
      · rw [List.mem_singleton.1 hq]
        exact h.2 }

/-- The insertion of `Query_CreateLocalFile`, and the identifier of the row, or `0` if a constraint
does not allow it.  A client that is not connected has no bucket, which would be `NULL`. -/
def newFile (bucket : Option Bytes) (file : FileArguments) (parent : ℤ) (localname : Bytes) :
    Names × ℤ :=
  match bucket with
  | none => (names, 0)
  | some bucket =>
      let id := rowid (names.files.map (·.id))
      if h : names.Creatable file.path parent then
        (names.insertFile ⟨id, bucket, file.path, localname, 1, parent, file.uid, file.gid,
          file.permissions, wrapInt file.mtime⟩ rfl h, id)
      else (names, 0)

/-- `Query_IncrementSubscriptionCount` and `Query_DecrementSubscriptionCount`. -/
def addSubscriptions (fileId count : ℤ) : Names :=
  let g : FileEntry → FileEntry := fun r =>
    if r.id = fileId then { r with subscriptions := r.subscriptions + count } else r
  have hg : ∀ r, (g r).id = r.id ∧ (g r).remotename = r.remotename ∧ (g r).parent = r.parent := by
    intro r
    by_cases h : r.id = fileId <;> simp [g, h]
  { names with
    files := names.files.map g
    id_pos := by
      simp only [List.forall_mem_map, hg]
      exact names.id_pos
    id_unique := by
      rw [List.map_map, show (·.id) ∘ g = (·.id) from funext fun r => (hg r).1]
      exact names.id_unique
    remotename_unique := by
      rw [List.map_map, show (·.remotename) ∘ g = (·.remotename) from funext fun r => (hg r).2.1]
      exact names.remotename_unique
    parent_known := by
      simp only [List.forall_mem_map, hg]
      exact names.parent_known }

/-- The row that a command works on, if it works on one. -/
def resolve (nl : Newlines) : Command → Bytes → Option FileEntry
  -- `ClientRequestsLocalFilename`
  | .file, request => (names.getLocalPath (trimString nl request)).map (·.2)
  -- `ClientRequestsDownload` and `ClientRequestsFileClose`
  | .cache, request => names.findFile request
  | .drop, request => names.findFile request
  | _, _ => none

end Names

/-! ### Requests -/

/-- How far a `CREATE` request has got: the query that comes next, or the result. -/
inductive CreateStage
  | findParent
  | newParent
  | findFile (parentId : ℤ)
  | newFile (parentId : ℤ)
  | incrementSubscriptionCount (fileId : ℤ)
  /-- The reply is `CREATED`. -/
  | created (fileId : ℤ)
  | failed
  deriving DecidableEq

/-- A `CREATE` request that the server works on. -/
structure Creator where
  bucket : Option Bytes
  dir : DirArguments
  file : FileArguments
  stage : CreateStage

/-- What comes after `CreateLocalDir`. -/
def CreateStage.ofParent (parentId : ℤ) : CreateStage :=
  if 0 < parentId then .findFile parentId else .failed

/-- What comes after `CreateLocalFile`. -/
def CreateStage.ofFile (fileId : ℤ) : CreateStage :=
  if 0 < fileId then .created fileId else .failed

/-- The next query of a `CREATE` request, with the name that `mkdtemp` or `mkstemp` has made. -/
def createStep (names : Names) (c : Creator) (localname : Bytes) : Option (Names × Creator) :=
  match c.stage with
  | .findParent =>
      let parentId := names.findParent c.dir.path
      some (names, { c with
        stage := if parentId ≠ 0 then CreateStage.ofParent parentId else .newParent })
  | .newParent =>
      let inserted := names.newParent c.dir localname
      some (inserted.1, { c with stage := CreateStage.ofParent inserted.2 })
  | .findFile parentId =>
      match names.findFile c.file.path with
      | none => some (names, { c with stage := .newFile parentId })
      | some r => some (names, { c with stage := .incrementSubscriptionCount r.id })
  | .newFile parentId =>
      let inserted := names.newFile c.bucket c.file parentId localname
      some (inserted.1, { c with stage := CreateStage.ofFile inserted.2 })
  | .incrementSubscriptionCount fileId =>
      some (names.addSubscriptions fileId 1, { c with stage := CreateStage.ofFile fileId })
  | .created _ => none
  | .failed => none

/-- The tables and the `CREATE` requests. -/
structure Server where
  names : Names
  creators : List Creator

/-- What happens at the server. -/
inductive ServerAction
  /-- A client that is connected to a bucket, or to none, sends a message. -/
  | request (bucket : Option Bytes) (released : Bytes → Bytes) (message : Bytes)
  /-- A `CREATE` request makes its next query. -/
  | query (k : ℕ) (localname : Bytes)

/-- **One step of the server.**  Only `CREATE` and `DROP` change the tables of the names. -/
def serverStep (nl : Newlines) (s : Server) : ServerAction → Option Server
  | .request bucket released message =>
      match commandDispatcher message with
      | some (.create, request) =>
          match clientRequestsCreate nl released request with
          | .error _ => some s
          | .create dir file =>
              some { s with creators := s.creators ++ [⟨bucket, dir, file, .findParent⟩] }
      | some (.drop, request) =>
          match s.names.findFile request with
          | none => some s
          | some r => some { s with names := s.names.addSubscriptions r.id (-1) }
      | _ => some s
  | .query k localname =>
      match s.creators[k]? with
      | none => none
      | some c => (createStep s.names c localname).map fun next =>
          ⟨next.1, s.creators.set k next.2⟩

variable {nl : Newlines} {names names' : Names} {s s' : Server}

/-! ### The rows -/

namespace Names

/-- A row with a given identifier and name. -/
def Has (names : Names) (fileId : ℤ) (remotename : Bytes) : Prop :=
  ∃ r ∈ names.files, r.id = fileId ∧ r.remotename = remotename

theorem findFile_eq_some_iff {path : Bytes} {r : FileEntry} :
    names.findFile path = some r ↔ r ∈ names.files ∧ r.remotename = path :=
  find?_key_eq_some_iff names.remotename_unique

theorem mem_of_getLocalPath {remotename : Bytes} {p : ParentEntry} {r : FileEntry}
    (h : names.getLocalPath remotename = some (p, r)) :
    r ∈ names.files ∧ r.remotename = remotename := by
  have hmem := List.mem_of_getLast? h
  simp only [List.mem_flatMap, List.mem_map, List.mem_filter, Prod.mk.injEq, decide_eq_true_eq]
    at hmem
  obtain ⟨q, -, r', ⟨hr', -, hname⟩, -, rfl⟩ := hmem
  exact ⟨hr', hname⟩

/-- The row of a name has a directory, so the join finds it. -/
theorem getLocalPath_of_mem {r : FileEntry} (hr : r ∈ names.files) :
    (names.getLocalPath r.remotename).map (·.2) = some r := by
  obtain ⟨p, hp, hid⟩ := names.parent_known r hr
  cases hpath : names.getLocalPath r.remotename with
  | none =>
      have hnil := List.getLast?_eq_none_iff.1 hpath
      rw [List.flatMap_eq_nil_iff] at hnil
      have hrow := List.filter_eq_nil_iff.1 (List.map_eq_nil_iff.1 (hnil p hp)) r hr
      simp [hid] at hrow
  | some found =>
      obtain ⟨hq, hname⟩ := mem_of_getLocalPath hpath
      rw [Option.map_some, List.inj_on_of_nodup_map names.remotename_unique hq hr hname]

/-- **The name of the row that a command works on** is the parameter, or the parameter without the
white space around it. -/
theorem resolve_remotename {command : Command} {request : Bytes} {r : FileEntry}
    (h : names.resolve nl command request = some r) :
    r ∈ names.files ∧ (r.remotename = request ∨ r.remotename = trimString nl request) := by
  cases command with
  | file =>
      obtain ⟨⟨p, q⟩, hpath, rfl⟩ := Option.map_eq_some_iff.1 h
      obtain ⟨hr, hname⟩ := mem_of_getLocalPath hpath
      exact ⟨hr, .inr hname⟩
  | cache | drop =>
      obtain ⟨hr, hname⟩ := findFile_eq_some_iff.1 h
      exact ⟨hr, .inl hname⟩
  | _ => cases h

/-- No row is taken away or renamed. -/
def Keeps (names names' : Names) : Prop :=
  ∀ fileId remotename, names.Has fileId remotename → names'.Has fileId remotename

theorem Keeps.refl (names : Names) : Keeps names names := fun _ _ h => h

theorem keeps_addSubscriptions (fileId count : ℤ) :
    Keeps names (names.addSubscriptions fileId count) := by
  rintro id remotename ⟨r, hr, hid, hname⟩
  refine ⟨_, List.mem_map_of_mem hr, ?_⟩
  split
  · exact ⟨hid, hname⟩
  · exact ⟨hid, hname⟩

theorem keeps_newFile (bucket : Option Bytes) (file : FileArguments) (parent : ℤ)
    (localname : Bytes) : Keeps names (names.newFile bucket file parent localname).1 := by
  rintro id remotename ⟨r, hr, hid, hname⟩
  cases bucket with
  | none => exact ⟨r, hr, hid, hname⟩
  | some bucket =>
      unfold newFile
      simp only
      split
      · exact ⟨r, List.mem_append_left _ hr, hid, hname⟩
      · exact ⟨r, hr, hid, hname⟩

/-- The row that `Query_CreateLocalFile` inserts. -/
theorem has_newFile {bucket : Option Bytes} {file : FileArguments} {parent : ℤ} {localname : Bytes}
    (hpos : 0 < (names.newFile bucket file parent localname).2) :
    (names.newFile bucket file parent localname).1.Has
      (names.newFile bucket file parent localname).2 file.path := by
  cases bucket with
  | none => exact absurd hpos (lt_irrefl 0)
  | some bucket =>
      unfold newFile at hpos ⊢
      simp only at hpos ⊢
      split
      · exact ⟨_, List.mem_append_right _ (List.mem_singleton_self _), rfl, rfl⟩
      · rename_i h
        rw [dif_neg h] at hpos
        exact absurd hpos (lt_irrefl 0)

end Names

/-! ### Steps of the server -/

/-- The row that a `CREATE` request has found or made. -/
def CreateStage.row : CreateStage → Option ℤ
  | .incrementSubscriptionCount fileId => some fileId
  | .created fileId => some fileId
  | _ => none

/-- The row that a request has found or made has the name of its file. -/
def Creator.Entered (names : Names) (c : Creator) : Prop :=
  ∀ fileId, c.stage.row = some fileId → names.Has fileId c.file.path

theorem Creator.Entered.of_keeps {c : Creator} (h : c.Entered names)
    (hkeeps : names.Keeps names') : c.Entered names' :=
  fun fileId hrow => hkeeps _ _ (h fileId hrow)

theorem CreateStage.row_ofParent (parentId : ℤ) : (CreateStage.ofParent parentId).row = none := by
  unfold CreateStage.ofParent
  split <;> rfl

theorem CreateStage.row_ofFile {fileId id : ℤ} (h : (CreateStage.ofFile fileId).row = some id) :
    0 < fileId ∧ fileId = id := by
  unfold CreateStage.ofFile at h
  split at h
  · rename_i hpos
    exact ⟨hpos, Option.some.inj h⟩
  · cases h

/-- **What a query of a `CREATE` request does**: it keeps every row, the request stays the same, and
a row that it has found or made is one of its name. -/
theorem createStep_spec {c c' : Creator} {localname : Bytes}
    (h : createStep names c localname = some (names', c')) :
    names.Keeps names' ∧ c'.file = c.file ∧ (c.Entered names → c'.Entered names') := by
  unfold createStep at h
  cases hstage : c.stage with
  | findParent =>
      rw [hstage] at h
      obtain ⟨rfl, rfl⟩ := Prod.mk.inj (Option.some.inj h)
      refine ⟨.refl names, rfl, fun _ fileId hrow => ?_⟩
      simp only at hrow
      split at hrow
      · rw [CreateStage.row_ofParent] at hrow
        cases hrow
      · cases hrow
  | newParent =>
      rw [hstage] at h
      obtain ⟨rfl, rfl⟩ := Prod.mk.inj (Option.some.inj h)
      refine ⟨fun _ _ hhas => hhas, rfl, fun _ fileId hrow => ?_⟩
      simp only [CreateStage.row_ofParent] at hrow
      cases hrow
  | findFile parentId =>
      rw [hstage] at h
      simp only at h
      split at h
      · obtain ⟨rfl, rfl⟩ := Prod.mk.inj (Option.some.inj h)
        exact ⟨.refl names, rfl, fun _ fileId hrow => by cases hrow⟩
      · rename_i r hfind
        obtain ⟨rfl, rfl⟩ := Prod.mk.inj (Option.some.inj h)
        refine ⟨.refl names, rfl, fun _ fileId hrow => ?_⟩
        obtain ⟨hr, hname⟩ := Names.findFile_eq_some_iff.1 hfind
        exact ⟨r, hr, Option.some.inj hrow, hname⟩
  | newFile parentId =>
      rw [hstage] at h
      obtain ⟨rfl, rfl⟩ := Prod.mk.inj (Option.some.inj h)
      refine ⟨Names.keeps_newFile _ _ _ _, rfl, fun _ fileId hrow => ?_⟩
      obtain ⟨hpos, rfl⟩ := CreateStage.row_ofFile hrow
      exact Names.has_newFile hpos
  | incrementSubscriptionCount fileId =>
      rw [hstage] at h
      obtain ⟨rfl, rfl⟩ := Prod.mk.inj (Option.some.inj h)
      refine ⟨Names.keeps_addSubscriptions _ _, rfl, fun hentered id hrow => ?_⟩
      obtain ⟨-, rfl⟩ := CreateStage.row_ofFile hrow
      exact Names.keeps_addSubscriptions _ _ _ _ (hentered fileId (by rw [hstage]; rfl))
  | created fileId | failed =>
      rw [hstage] at h
      cases h

/-- **What a step of the server does**: a message starts a request or changes nothing but counters,
and a query is one of a request. -/
theorem serverStep_cases {action : ServerAction} (h : serverStep nl s action = some s') :
    (∃ bucket released message, action = .request bucket released message ∧
      ((s.names.Keeps s'.names ∧ s'.creators = s.creators) ∨
        ∃ request dir file, commandDispatcher message = some (.create, request) ∧
          clientRequestsCreate nl released request = .create dir file ∧
          s' = { s with creators := s.creators ++ [⟨bucket, dir, file, .findParent⟩] })) ∨
    ∃ k localname c names' c', action = .query k localname ∧ s.creators[k]? = some c ∧
      createStep s.names c localname = some (names', c') ∧ s' = ⟨names', s.creators.set k c'⟩ := by
  cases action with
  | request bucket released message =>
      refine .inl ⟨bucket, released, message, rfl, ?_⟩
      unfold serverStep at h
      simp only at h
      split at h
      · rename_i request hcommand
        split at h
        · cases h
          exact .inl ⟨.refl _, rfl⟩
        · rename_i dir file hcreate
          cases h
          exact .inr ⟨request, dir, file, hcommand, hcreate, rfl⟩
      · split at h
        · cases h
          exact .inl ⟨.refl _, rfl⟩
        · cases h
          exact .inl ⟨Names.keeps_addSubscriptions _ _, rfl⟩
      · cases h
        exact .inl ⟨.refl _, rfl⟩
  | query k localname =>
      unfold serverStep at h
      simp only at h
      split at h
      · cases h
      · rename_i c hc
        obtain ⟨⟨names', c'⟩, hstep, rfl⟩ := Option.map_eq_some_iff.1 h
        exact .inr ⟨k, localname, c, names', c', rfl, hc, hstep, rfl⟩

/-- **No row is taken away or renamed.** -/
theorem keeps_of_serverStep {action : ServerAction} (h : serverStep nl s action = some s') :
    s.names.Keeps s'.names := by
  rcases serverStep_cases h with ⟨_, _, _, -, ⟨hkeeps, -⟩ | ⟨_, _, _, -, -, rfl⟩⟩ |
    ⟨_, _, _, _, _, -, -, hstep, rfl⟩
  · exact hkeeps
  · exact .refl _
  · exact (createStep_spec hstep).1

/-- **A `CREATE` request ends with a row of its name.** -/
theorem entered_of_serverStep {action : ServerAction} (h : serverStep nl s action = some s')
    (hentered : ∀ c ∈ s.creators, c.Entered s.names) : ∀ c ∈ s'.creators, c.Entered s'.names := by
  have hkeeps := keeps_of_serverStep h
  rcases serverStep_cases h with ⟨_, _, _, -, ⟨-, hcreators⟩ | ⟨_, _, _, -, -, rfl⟩⟩ |
    ⟨k, _, c₀, names', c₀', -, hc₀, hstep, rfl⟩
  · intro c hc
    exact (hentered c (hcreators ▸ hc)).of_keeps hkeeps
  · intro c hc
    rcases List.mem_append.1 hc with hc | hc
    · exact hentered c hc
    · rw [List.mem_singleton.1 hc]
      exact fun fileId hrow => by cases hrow
  · intro c hc
    rcases List.mem_or_eq_of_mem_set hc with hc | rfl
    · exact (hentered c hc).of_keeps hkeeps
    · exact (createStep_spec hstep).2.2 (hentered c₀ (List.mem_of_getElem? hc₀))

/-- A request stays where it is, and the name of its file stays the same. -/
theorem file_of_serverStep {action : ServerAction} (h : serverStep nl s action = some s') {k : ℕ}
    {c : Creator} (hc : s.creators[k]? = some c) :
    ∃ c', s'.creators[k]? = some c' ∧ c'.file = c.file := by
  have hlt := (List.getElem?_eq_some_iff.1 hc).1
  rcases serverStep_cases h with ⟨_, _, _, -, ⟨-, hcreators⟩ | ⟨_, _, _, -, -, rfl⟩⟩ |
    ⟨k₀, _, c₀, names', c₀', -, hc₀, hstep, rfl⟩
  · exact ⟨c, hcreators ▸ hc, rfl⟩
  · exact ⟨c, by rw [List.getElem?_append_left hlt, hc], rfl⟩
  · by_cases hk : k₀ = k
    · subst hk
      obtain rfl : c₀ = c := Option.some.inj (hc₀.symm.trans hc)
      exact ⟨c₀', List.getElem?_set_self hlt, (createStep_spec hstep).2.1⟩
    · exact ⟨c, by rw [List.getElem?_set_ne hk, hc], rfl⟩

/-! ### Runs of the server -/

theorem has_of_run {as : List ServerAction} {fileId : ℤ} {remotename : Bytes}
    (hhas : s.names.Has fileId remotename) (hrun : run (serverStep nl) s as = some s') :
    s'.names.Has fileId remotename := by
  have hstep : ∀ (s : Server) (action : ServerAction) (s' : Server),
      s.names.Has fileId remotename → serverStep nl s action = some s' →
        s'.names.Has fileId remotename :=
    fun s action s' hhas h => keeps_of_serverStep h _ _ hhas
  exact run_inv_of_step hstep hhas hrun

theorem entered_of_run {as : List ServerAction} (hentered : ∀ c ∈ s.creators, c.Entered s.names)
    (hrun : run (serverStep nl) s as = some s') : ∀ c ∈ s'.creators, c.Entered s'.names := by
  have hstep : ∀ (s : Server) (action : ServerAction) (s' : Server),
      (∀ c ∈ s.creators, c.Entered s.names) → serverStep nl s action = some s' →
        ∀ c ∈ s'.creators, c.Entered s'.names :=
    fun s action s' hentered h => entered_of_serverStep h hentered
  exact run_inv_of_step hstep hentered hrun

theorem file_of_run {as : List ServerAction} {k : ℕ} {file : FileArguments}
    (hfile : ∃ c, s.creators[k]? = some c ∧ c.file = file)
    (hrun : run (serverStep nl) s as = some s') :
    ∃ c, s'.creators[k]? = some c ∧ c.file = file := by
  have hstep : ∀ (s : Server) (action : ServerAction) (s' : Server),
      (∃ c, s.creators[k]? = some c ∧ c.file = file) → serverStep nl s action = some s' →
        ∃ c, s'.creators[k]? = some c ∧ c.file = file := by
    rintro s action s' ⟨c, hc, hfile⟩ h
    obtain ⟨c', hc', hfile'⟩ := file_of_serverStep h hc
    exact ⟨c', hc', hfile'.trans hfile⟩
  exact run_inv_of_step hstep hfile hrun

/-! ### The file of a path -/

theorem trimString_trimString (p : Bytes) : trimString nl (trimString nl p) = trimString nl p :=
  (bare_trimString p).trimString_eq_self

/-- Two paths that name the same row differ in the white space around them at most. -/
theorem trimString_eq_of_resolve {command command' : Command} {p q : Bytes} {r : FileEntry}
    (h : names.resolve nl command p = some r) (h' : names.resolve nl command' q = some r) :
    trimString nl p = trimString nl q := by
  have htrim : ∀ {command : Command} {p : Bytes}, names.resolve nl command p = some r →
      trimString nl r.remotename = trimString nl p := by
    intro command p h
    rcases (Names.resolve_remotename h).2 with hname | hname
    · rw [hname]
    · rw [hname, trimString_trimString]
  exact (htrim h).symm.trans (htrim h')

/-- Every command finds the row of a name. -/
theorem resolve_of_has {fileId : ℤ} {p : Bytes} (h : names.Has fileId (trimString nl p)) :
    ∃ r ∈ names.files, r.id = fileId ∧ names.resolve nl .file p = some r ∧
      (Bare p → names.resolve nl .cache p = some r ∧ names.resolve nl .drop p = some r) := by
  obtain ⟨r, hr, hid, hname⟩ := h
  refine ⟨r, hr, hid, ?_, fun hbare => ?_⟩
  · rw [Names.resolve, ← hname]
    exact Names.getLocalPath_of_mem hr
  · rw [hbare.trimString_eq_self] at hname
    have hfind := Names.findFile_eq_some_iff.2 ⟨hr, hname⟩
    exact ⟨hfind, hfind⟩

/-- A request for a path is started with the name that the path gives. -/
theorem started_of_request {bucket : Option Bytes} {released : Bytes → Bytes} {f : CreateRequest}
    (hfits : f.Fits) (hnewline : ∀ ch ∈ trimString nl f.path, nl.isNewline ch = false)
    (h : serverStep nl s (.request bucket released (createCachedFile f)) = some s')
    (haccepted : s.creators.length < s'.creators.length) :
    ∃ file : FileArguments, file.path = trimString nl f.path ∧
      ∃ c, s'.creators[s.creators.length]? = some c ∧ c.file = file := by
  rcases serverStep_cases h with ⟨_, _, _, haction, ⟨-, hcreators⟩ |
    ⟨request, dir, file, hcommand, hcreate, rfl⟩⟩ | ⟨_, _, _, _, _, haction, -⟩
  · rw [hcreators] at haccepted
    exact absurd haccepted (lt_irrefl _)
  · cases haction
    rw [commandDispatcher_createCachedFile, Option.some_inj, Prod.mk.injEq] at hcommand
    obtain ⟨-, rfl⟩ := hcommand
    exact ⟨file, filename_of_fits hfits hnewline hcreate, _, List.getElem?_concat_length, rfl⟩
  · cases haction

/-- **The commands agree on the file that a path names.**  Whatever happens before, in between and
afterwards: once a `CREATE` request for a path has been answered, with numbers that fit and a path
that does not end a line, `FILE` with the path finds the row of the request, and so do `CACHE` and
`DROP` if there is no white space around the path; and two paths that name the same row differ in
the white space around them at most. -/
theorem resolves_created {as bs cs : List ServerAction} {s₀ s₁ s₂ t : Server}
    {bucket : Option Bytes} {released : Bytes → Bytes} {f : CreateRequest} {fileId : ℤ}
    (hfits : f.Fits) (hnewline : ∀ ch ∈ trimString nl f.path, nl.isNewline ch = false)
    (h₀ : run (serverStep nl) ⟨names, []⟩ as = some s₀)
    (h₁ : serverStep nl s₀ (.request bucket released (createCachedFile f)) = some s₁)
    (haccepted : s₀.creators.length < s₁.creators.length)
    (h₂ : run (serverStep nl) s₁ bs = some s₂)
    (hcreated : s₂.creators[s₀.creators.length]?.map (·.stage) = some (.created fileId))
    (ht : run (serverStep nl) s₂ cs = some t) :
    (∃ r ∈ t.names.files, r.id = fileId ∧ t.names.resolve nl .file f.path = some r ∧
      (Bare f.path → t.names.resolve nl .cache f.path = some r ∧
        t.names.resolve nl .drop f.path = some r)) ∧
      ∀ command command' p q r, t.names.resolve nl command p = some r →
        t.names.resolve nl command' q = some r → trimString nl p = trimString nl q := by
  refine ⟨resolve_of_has ?_, fun command command' p q r => trimString_eq_of_resolve⟩
  obtain ⟨file, hname, hstarted⟩ := started_of_request hfits hnewline h₁ haccepted
  obtain ⟨c, hc, hfile⟩ := file_of_run hstarted h₂
  have hentered := entered_of_run (entered_of_serverStep h₁ (entered_of_run (by simp) h₀)) h₂
  rw [hc, Option.map_some, Option.some_inj] at hcreated
  have hhas : s₂.names.Has fileId c.file.path :=
    hentered c (List.mem_of_getElem? hc) fileId (by rw [hcreated]; rfl)
  rw [hfile, hname] at hhas
  exact has_of_run hhas ht

/-- A request to create a file in the root directory. -/
def CreateRequest.ofName (path : Bytes) : CreateRequest where
  path := path
  parentUid := 0
  parentGid := 0
  parentPermissions := 493
  uid := 1000
  gid := 1000
  permissions := 420
  mtime := 0

/-- A client creates a file in an empty cache; the request makes four queries. -/
def createRun (path : Bytes) : Option Server :=
  (serverStep .lineFeed ⟨.empty, []⟩
    (.request (some (ascii "bucket")) id (createCachedFile (.ofName path)))).bind fun s =>
      run (serverStep .lineFeed) s
        [.query 0 (ascii "dddddd"), .query 0 (ascii "dddddd"), .query 0 (ascii "ffffff"),
          .query 0 (ascii "ffffff")]

theorem resolves_created_first :
    ∃ t r, createRun (ascii "a") = some t ∧ r.id = 1 ∧
      t.names.resolve .lineFeed .file (ascii "a") = some r ∧
      t.names.resolve .lineFeed .cache (ascii "a") = some r ∧
      t.names.resolve .lineFeed .drop (ascii "a") = some r := by
  obtain ⟨t, ht⟩ : ∃ t, createRun (ascii "a") = some t :=
    Option.isSome_iff_exists.1 (by decide +kernel)
  obtain ⟨s₁, h₁, h₂⟩ := Option.bind_eq_some_iff.1 ht
  have haccepted : (serverStep .lineFeed ⟨.empty, []⟩ (.request (some (ascii "bucket")) id
      (createCachedFile (.ofName (ascii "a"))))).map (·.creators.length) = some 1 := by
    decide +kernel
  have hcreated : (createRun (ascii "a")).map (·.creators[0]?.map (·.stage)) =
      some (some (.created 1)) := by
    decide +kernel
  rw [h₁, Option.map_some, Option.some_inj] at haccepted
  rw [ht, Option.map_some, Option.some_inj] at hcreated
  have hfits : (CreateRequest.ofName (ascii "a")).Fits := by
    constructor <;> decide
  have hnewline : ∀ ch ∈ trimString .lineFeed (ascii "a"),
      Newlines.lineFeed.isNewline ch = false := by
    decide +kernel
  obtain ⟨⟨r, -, hid, hfile, hbare⟩, -⟩ := resolves_created hfits hnewline (run_nil _) h₁
    (haccepted.symm ▸ Nat.zero_lt_one) h₂ hcreated (run_nil t)
  exact ⟨t, r, ht, hid, hfile, hbare (by decide +kernel)⟩

/-- `a` and `a` with a space after it are the same file. -/
theorem resolve_space :
    ∃ t r, createRun (ascii "a") = some t ∧
      t.names.resolve .lineFeed .file (ascii "a") = some r ∧
      t.names.resolve .lineFeed .file (ascii "a ") = some r ∧ ascii "a" ≠ ascii "a " := by
  obtain ⟨t, ht⟩ : ∃ t, createRun (ascii "a") = some t :=
    Option.isSome_iff_exists.1 (by decide +kernel)
  have hrow : ∀ path ∈ [ascii "a", ascii "a "], (createRun (ascii "a")).bind
      (·.names.resolve .lineFeed .file path) =
        some ⟨1, ascii "bucket", ascii "a", ascii "ffffff", 1, 1, 1000, 1000, 420, 0⟩ := by
    decide +kernel
  rw [ht] at hrow
  exact ⟨t, _, ht, hrow _ (by simp), hrow _ (by simp), by decide⟩

end AwsS3fs
