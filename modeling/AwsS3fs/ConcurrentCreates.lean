/-
**Clients that create files at the same time.**

`Query_CreateLocalDir` and `Query_CreateLocalFile` (`filecachedb.c`) look for a row first and insert
one if there is none.  The mutex of the cache is released between the two, so another client can
insert the row in the meantime.  The names of `files` are unique, and the second insertion fails;
the names of `parents` are not, and there are two rows then.

A request is followed here from its text to its last query, and the queries of all requests are
made in any order.

Main definitions:

* `AwsS3fs.CreateAction`, `AwsS3fs.createActionStep` — clients send `CREATE` requests, and the
  server works on them;
* `AwsS3fs.CreateStage.remaining` — how many queries a request can still make;
* `AwsS3fs.Serialised` — what comes out if the requests are made one after the other;
* `AwsS3fs.undisturbed` — no insertion comes too late;
* `AwsS3fs.Advance` — what an undisturbed query does.

Main results:

* `AwsS3fs.remaining_createStep` — a request comes to an end;
* `AwsS3fs.Orderly.advance` — an undisturbed query keeps the tables in order;
* `AwsS3fs.serialised_of_undisturbed` — **requests that are not disturbed are serialised**.
-/

import AwsS3fs.FileNames

set_option relaxedAutoImplicit false
set_option autoImplicit false

namespace AwsS3fs

open CLib Runs Threads

/-! ### Requests of several clients -/

/-- What happens while clients create files. -/
inductive CreateAction
  /-- A client that is connected to a bucket, or to none, calls `CreateCachedFile`. -/
  | request (bucket : Option Bytes) (released : Bytes → Bytes) (f : CreateRequest)
  /-- A request makes its next query. -/
  | query (k : ℕ) (localname : Bytes)

/-- The message of a client, or the query of a request. -/
def CreateAction.toServer : CreateAction → ServerAction
  | .request bucket released f => .request bucket released (createCachedFile f)
  | .query k localname => .query k localname

/-- One step of clients and server. -/
def createActionStep (nl : Newlines) (s : Server) (a : CreateAction) : Option Server :=
  serverStep nl s a.toServer

/-- The path that a client wants to create. -/
def CreateAction.path : CreateAction → Option Bytes
  | .request _ _ f => some f.path
  | .query _ _ => none

/-- How many queries a request can still make. -/
def CreateStage.remaining : CreateStage → ℕ
  | .findParent => 4
  | .newParent => 3
  | .findFile _ => 2
  | .newFile _ => 1
  | .incrementSubscriptionCount _ => 1
  | .created _ => 0
  | .failed => 0

/-- The request has been answered `CREATED`. -/
def CreateStage.isCreated : CreateStage → Bool
  | .created _ => true
  | _ => false

/-- A request for a path that has been answered `CREATED`. -/
def Creator.holds (path : Bytes) (c : Creator) : Bool := c.stage.isCreated && c.file.path == path

/-- **What comes out if the requests are made one after the other**, `paths` being the paths that
were asked for: one row for each directory and each file, and every request that makes no more
queries is answered `CREATED`, the requests for one path with the same identifier, and counted. -/
structure Serialised (paths : List Bytes) (s : Server) : Prop where
  parents_unique : (s.names.parents.map (·.remotename)).Nodup
  files_unique : (s.names.files.map (·.remotename)).Nodup
  paths_eq : s.creators.map (·.file.path) = paths
  answered : ∀ c ∈ s.creators, 0 < c.stage.remaining ∨ ∃ fileId, c.stage = .created fileId
  same_file : ∀ c ∈ s.creators, ∀ c' ∈ s.creators, ∀ fileId fileId', c.stage = .created fileId →
    c'.stage = .created fileId' → c.file.path = c'.file.path → fileId = fileId'
  subscriptions : ∀ r ∈ s.names.files,
    r.subscriptions = s.creators.countP (·.holds r.remotename)

/-- The path of the file that a request is for, as the server reads it. -/
def CreateOutcome.path : CreateOutcome → Option Bytes
  | .error _ => none
  | .create _ file => some file.path

/-- When a row is inserted, there is none of its name. -/
def Creator.undisturbed (names : Names) (c : Creator) : Bool :=
  match c.stage with
  | .newParent => names.parents.all (·.remotename ≠ c.dir.path)
  | .newFile _ => names.files.all (·.remotename ≠ c.file.path)
  | _ => true

/-- **No insertion comes too late.**  The client is connected to a bucket, and the server reads the
path of its request as it was meant; and when a row is inserted, there is none of its name. -/
def undisturbed (nl : Newlines) (s : Server) : CreateAction → Bool
  | .request bucket released f =>
      bucket.isSome && (clientRequestsCreate nl released f.parameters).path == some f.path
  | .query k _ => s.creators[k]?.all (·.undisturbed s.names)

variable {nl : Newlines} {names names' : Names} {s s' t : Server} {c c' : Creator}

/-! ### A request comes to an end -/

theorem CreateStage.remaining_ofParent (parentId : ℤ) :
    (CreateStage.ofParent parentId).remaining ≤ 2 := by
  unfold CreateStage.ofParent
  split
  · exact le_refl 2
  · exact Nat.zero_le 2

theorem CreateStage.remaining_ofFile (fileId : ℤ) : (CreateStage.ofFile fileId).remaining = 0 := by
  unfold CreateStage.ofFile
  split <;> rfl

/-- A request makes queries as long as some remain. -/
theorem isSome_createStep_iff (localname : Bytes) :
    (createStep names c localname).isSome = true ↔ 0 < c.stage.remaining := by
  unfold createStep
  cases c.stage with
  | findFile parentId =>
      refine iff_of_true ?_ Nat.two_pos
      simp only
      split <;> rfl
  | created fileId | failed => exact iff_of_false (by simp) (by simp [CreateStage.remaining])
  | _ => exact iff_of_true rfl (by simp [CreateStage.remaining])

/-- **A request comes to an end**: each query leaves fewer of them. -/
theorem remaining_createStep {localname : Bytes}
    (h : createStep names c localname = some (names', c')) :
    c'.stage.remaining < c.stage.remaining := by
  unfold createStep at h
  cases hstage : c.stage with
  | findParent =>
      rw [hstage] at h
      obtain ⟨-, rfl⟩ := Prod.mk.inj (Option.some.inj h)
      simp only
      split
      · exact lt_of_le_of_lt (CreateStage.remaining_ofParent _)
          (show 2 < CreateStage.findParent.remaining by decide)
      · decide
  | newParent =>
      rw [hstage] at h
      obtain ⟨-, rfl⟩ := Prod.mk.inj (Option.some.inj h)
      exact lt_of_le_of_lt (CreateStage.remaining_ofParent _)
        (show 2 < CreateStage.newParent.remaining by decide)
  | findFile parentId =>
      rw [hstage] at h
      simp only at h
      split at h
      · obtain ⟨-, rfl⟩ := Prod.mk.inj (Option.some.inj h)
        exact Nat.one_lt_two
      · obtain ⟨-, rfl⟩ := Prod.mk.inj (Option.some.inj h)
        exact Nat.one_lt_two
  | newFile parentId | incrementSubscriptionCount fileId =>
      rw [hstage] at h
      obtain ⟨-, rfl⟩ := Prod.mk.inj (Option.some.inj h)
      simp only [CreateStage.remaining_ofFile]
      exact Nat.one_pos
  | created fileId | failed =>
      rw [hstage] at h
      cases h

/-! ### Undisturbed queries -/

/-- What a request has found is there. -/
def Creator.Ready (names : Names) (c : Creator) : Prop :=
  match c.stage with
  | .findParent => True
  | .newParent => True
  | .findFile parentId => ∃ p ∈ names.parents, p.id = parentId
  | .newFile parentId => ∃ p ∈ names.parents, p.id = parentId
  | .incrementSubscriptionCount fileId => names.Has fileId c.file.path
  | .created fileId => names.Has fileId c.file.path
  | .failed => False

/-- **What an undisturbed query does.** -/
inductive Advance (names : Names) (c : Creator) : Names → Creator → Prop
  | lookUp {stage : CreateStage} (hready : ({ c with stage := stage } : Creator).Ready names)
      (hstage : stage.isCreated = false) : Advance names c names { c with stage := stage }
  | insertParent {localname : Bytes}
      (habsent : ∀ p ∈ names.parents, p.remotename ≠ c.dir.path) :
      Advance names c (names.newParent c.dir localname).1
        { c with stage := .findFile (names.newParent c.dir localname).2 }
  | insertFile {r : FileEntry} (hid : r.id = rowid (names.files.map (·.id)))
      (h : names.Creatable r.remotename r.parent) (hname : r.remotename = c.file.path)
      (hone : r.subscriptions = 1) :
      Advance names c (names.insertFile r hid h) { c with stage := .created r.id }
  | increment {fileId : ℤ} (hhas : names.Has fileId c.file.path) :
      Advance names c (names.addSubscriptions fileId 1) { c with stage := .created fileId }

/-- `FindParent` finds a row, or there is none. -/
theorem Names.findParent_cases (names : Names) (path : Bytes) :
    (∃ p ∈ names.parents, p.id = names.findParent path) ∨ names.findParent path = 0 := by
  unfold Names.findParent
  cases hlast : (names.parents.filter (·.remotename = path)).getLast? with
  | none => exact .inr rfl
  | some p => exact .inl ⟨p, (List.mem_filter.1 (List.mem_of_getLast? hlast)).1, rfl⟩

/-- The row that is inserted for a file, if the constraints allow it. -/
theorem Names.newFile_of_creatable (names : Names) {bucket : Option Bytes} {file : FileArguments}
    {parent : ℤ} (localname : Bytes) (hbucket : bucket.isSome = true)
    (h : names.Creatable file.path parent) :
    ∃ (r : FileEntry) (hid : r.id = rowid (names.files.map (·.id)))
      (hcreatable : names.Creatable r.remotename r.parent),
      names.newFile bucket file parent localname = (names.insertFile r hid hcreatable, r.id) ∧
        r.remotename = file.path ∧ r.subscriptions = 1 := by
  obtain ⟨bucket, rfl⟩ := Option.isSome_iff_exists.1 hbucket
  refine ⟨⟨rowid (names.files.map (·.id)), bucket, file.path, localname, 1, parent, file.uid,
    file.gid, file.permissions, wrapInt file.mtime⟩, rfl, h, ?_, rfl, rfl⟩
  simp only [Names.newFile, dif_pos h]

theorem advance_of_createStep {localname : Bytes} (hpos : ∀ p ∈ names.parents, 0 < p.id)
    (hbucket : c.bucket.isSome = true) (hready : c.Ready names)
    (hundisturbed : c.undisturbed names = true)
    (h : createStep names c localname = some (names', c')) : Advance names c names' c' := by
  unfold createStep at h
  cases hstage : c.stage with
  | findParent =>
      rw [hstage] at h
      obtain ⟨rfl, rfl⟩ := Prod.mk.inj (Option.some.inj h)
      by_cases hzero : names.findParent c.dir.path = 0
      · rw [if_neg (not_not.2 hzero)]
        exact .lookUp trivial rfl
      · obtain ⟨p, hp, hid⟩ := (names.findParent_cases c.dir.path).resolve_right hzero
        rw [if_pos hzero, CreateStage.ofParent, if_pos (hid ▸ hpos p hp)]
        exact .lookUp ⟨p, hp, hid⟩ rfl
  | newParent =>
      rw [hstage] at h
      obtain ⟨rfl, rfl⟩ := Prod.mk.inj (Option.some.inj h)
      have hid : 0 < (names.newParent c.dir localname).2 := rowid_pos _
      rw [CreateStage.ofParent, if_pos hid]
      simp only [Creator.undisturbed, hstage] at hundisturbed
      exact .insertParent (by simpa using hundisturbed)
  | findFile parentId =>
      rw [hstage] at h
      simp only [Creator.Ready, hstage] at hready
      simp only at h
      split at h
      · obtain ⟨rfl, rfl⟩ := Prod.mk.inj (Option.some.inj h)
        exact .lookUp hready rfl
      · rename_i r hfind
        obtain ⟨rfl, rfl⟩ := Prod.mk.inj (Option.some.inj h)
        obtain ⟨hr, hname⟩ := Names.findFile_eq_some_iff.1 hfind
        exact .lookUp ⟨r, hr, rfl, hname⟩ rfl
  | newFile parentId =>
      rw [hstage] at h
      simp only [Creator.Ready, hstage] at hready
      simp only [Creator.undisturbed, hstage] at hundisturbed
      obtain ⟨r, hid, hcreatable, hnew, hname, hone⟩ :=
        names.newFile_of_creatable localname hbucket ⟨by simpa using hundisturbed, hready⟩
      have hpos : 0 < r.id := hid ▸ rowid_pos _
      simp only [hnew, CreateStage.ofFile, if_pos hpos] at h
      obtain ⟨rfl, rfl⟩ := Prod.mk.inj (Option.some.inj h)
      exact .insertFile hid hcreatable hname hone
  | incrementSubscriptionCount fileId =>
      rw [hstage] at h
      simp only [Creator.Ready, hstage] at hready
      have hpos : 0 < fileId := by
        obtain ⟨r, hr, hid, -⟩ := hready
        exact hid ▸ names.id_pos r hr
      obtain ⟨rfl, rfl⟩ := Prod.mk.inj (Option.some.inj h)
      rw [CreateStage.ofFile, if_pos hpos]
      exact .increment hready
  | created fileId | failed =>
      rw [hstage] at h
      cases h

/-! ### The tables stay in order -/

/-- The tables and the requests, as long as nothing is inserted too late. -/
structure Orderly (s : Server) : Prop where
  parents_unique : (s.names.parents.map (·.remotename)).Nodup
  parent_pos : ∀ p ∈ s.names.parents, 0 < p.id
  bucket : ∀ c ∈ s.creators, c.bucket.isSome = true
  ready : ∀ c ∈ s.creators, c.Ready s.names
  subscriptions : ∀ r ∈ s.names.files,
    r.subscriptions = s.creators.countP (·.holds r.remotename)

/-- What a request has found stays there. -/
theorem Creator.Ready.of_keeps (h : c.Ready names) (hkeeps : names.Keeps names')
    (hparents : names.parents ⊆ names'.parents) : c.Ready names' := by
  unfold Creator.Ready at h ⊢
  cases hstage : c.stage with
  | findParent | newParent => trivial
  | findFile parentId | newFile parentId =>
      simp only [hstage] at h
      obtain ⟨p, hp, hid⟩ := h
      exact ⟨p, hparents hp, hid⟩
  | incrementSubscriptionCount fileId | created fileId =>
      simp only [hstage] at h
      exact hkeeps _ _ h
  | failed =>
      simp only [hstage] at h

/-- A file that a request holds has a row. -/
theorem has_of_holds {path : Bytes} (hready : c.Ready names) (h : c.holds path = true) :
    ∃ r ∈ names.files, r.remotename = path := by
  obtain ⟨hcreated, hpath⟩ := Bool.and_eq_true_iff.1 h
  unfold Creator.Ready at hready
  cases hstage : c.stage with
  | created fileId =>
      simp only [hstage] at hready
      obtain ⟨r, hr, -, hname⟩ := hready
      exact ⟨r, hr, hname.trans (beq_iff_eq.1 hpath)⟩
  | _ =>
      rw [hstage] at hcreated
      cases hcreated

/-- The row of a name that an identifier belongs to. -/
theorem Names.Has.eq_iff {fileId : ℤ} {path : Bytes} (h : names.Has fileId path) {r : FileEntry}
    (hr : r ∈ names.files) : r.id = fileId ↔ r.remotename = path := by
  obtain ⟨q, hq, rfl, rfl⟩ := h
  constructor
  · intro hid
    rw [List.inj_on_of_nodup_map names.id_unique hr hq hid]
  · intro hname
    rw [List.inj_on_of_nodup_map names.remotename_unique hr hq hname]

theorem keeps_of_advance (h : Advance names c names' c') :
    names.Keeps names' ∧ names.parents ⊆ names'.parents := by
  cases h with
  | lookUp => exact ⟨.refl _, fun _ hp => hp⟩
  | insertParent => exact ⟨fun _ _ h => h, fun p hp => List.mem_append_left _ hp⟩
  | insertFile hid h =>
      refine ⟨?_, fun _ hp => hp⟩
      rintro fileId path ⟨r, hr, hrow⟩
      exact ⟨r, List.mem_append_left _ hr, hrow⟩
  | increment => exact ⟨Names.keeps_addSubscriptions _ _, fun _ hp => hp⟩

theorem ready_of_advance (h : Advance names c names' c') : c'.Ready names' := by
  cases h with
  | lookUp hready => exact hready
  | insertParent =>
      exact ⟨_, List.mem_append_right _ (List.mem_singleton_self _), rfl⟩
  | insertFile hid h hname =>
      exact ⟨_, List.mem_append_right _ (List.mem_singleton_self _), rfl, hname⟩
  | increment hhas => exact Names.keeps_addSubscriptions _ _ _ _ hhas

/-- A row of the tables after an increment: a row from before, counted once more or not. -/
theorem Names.of_mem_addSubscriptions {fileId count : ℤ} {r : FileEntry}
    (hr : r ∈ (names.addSubscriptions fileId count).files) :
    ∃ q ∈ names.files, r.id = q.id ∧ r.remotename = q.remotename ∧
      r.subscriptions = q.subscriptions + if q.id = fileId then count else 0 := by
  obtain ⟨q, hq, rfl⟩ := List.mem_map.1 hr
  refine ⟨q, hq, ?_⟩
  split
  · exact ⟨rfl, rfl, rfl⟩
  · exact ⟨rfl, rfl, (add_zero _).symm⟩

/-- Every request that is answered is counted, in the row of its file. -/
theorem Orderly.subscriptions_advance (h : Orderly s) {k : ℕ} (hc : s.creators[k]? = some c)
    (hpending : c.stage.isCreated = false) (hadvance : Advance s.names c names' c') :
    ∀ r ∈ names'.files, r.subscriptions = (s.creators.set k c').countP (·.holds r.remotename) := by
  have hbefore : ∀ path, c.holds path = false := fun path => by rw [Creator.holds, hpending]; rfl
  cases hadvance with
  | @lookUp stage _ hstage =>
      intro r hr
      have hafter : ({ c with stage := stage } : Creator).holds r.remotename =
          c.holds r.remotename := by
        rw [hbefore, Creator.holds, hstage]
        rfl
      rw [countP_set_of_eq hc hafter]
      exact h.subscriptions r hr
  | insertParent =>
      intro r hr
      rw [countP_set_of_eq hc (hbefore r.remotename).symm]
      exact h.subscriptions r hr
  | @insertFile r hid hcreatable hname hone =>
      intro q hq
      rcases List.mem_append.1 hq with hq | hq
      · have hne : c.file.path ≠ q.remotename := hname ▸ (hcreatable.1 q hq).symm
        have hafter : ({ c with stage := .created r.id } : Creator).holds q.remotename =
            c.holds q.remotename := by
          rw [hbefore]
          simpa [Creator.holds] using fun _ => hne
        rw [countP_set_of_eq hc hafter]
        exact h.subscriptions q hq
      · obtain rfl := List.mem_singleton.1 hq
        -- a request that held the file would have left a row for it
        have hnone : s.creators.countP (·.holds q.remotename) = 0 := by
          rw [List.countP_eq_zero]
          intro c₁ hc₁ hholds
          obtain ⟨r₁, hr₁, hname₁⟩ := has_of_holds (h.ready c₁ hc₁) hholds
          exact hcreatable.1 r₁ hr₁ hname₁
        have hafter : ({ c with stage := .created q.id } : Creator).holds q.remotename = true := by
          simp [Creator.holds, CreateStage.isCreated, hname]
        rw [countP_set_add hc (hbefore _) hafter, hnone, hone]
        rfl
  | @increment fileId hhas =>
      intro r hr
      obtain ⟨q, hq, -, hname, hcount⟩ := Names.of_mem_addSubscriptions hr
      rw [hname, hcount, h.subscriptions q hq]
      by_cases hid : q.id = fileId
      · have hafter : ({ c with stage := .created fileId } : Creator).holds q.remotename =
            true := by
          simp [Creator.holds, CreateStage.isCreated, (hhas.eq_iff hq).1 hid]
        rw [if_pos hid, countP_set_add hc (hbefore _) hafter]
        push_cast
        rfl
      · have hne : c.file.path ≠ q.remotename := fun heq => hid ((hhas.eq_iff hq).2 heq.symm)
        have hafter : ({ c with stage := .created fileId } : Creator).holds q.remotename =
            c.holds q.remotename := by
          rw [hbefore]
          simpa [Creator.holds] using fun _ => hne
        rw [if_neg hid, countP_set_of_eq hc hafter, add_zero]

/-- **An undisturbed query keeps the tables in order.** -/
theorem Orderly.advance (h : Orderly s) {k : ℕ} (hc : s.creators[k]? = some c)
    (hpending : c.stage.isCreated = false) (hadvance : Advance s.names c names' c') :
    Orderly ⟨names', s.creators.set k c'⟩ := by
  have hmem := List.mem_of_getElem? hc
  obtain ⟨hkeeps, hparents⟩ := keeps_of_advance hadvance
  refine ⟨?_, ?_, ?_, ?_, h.subscriptions_advance hc hpending hadvance⟩
  · cases hadvance with
    | insertParent habsent =>
        simp only [Names.newParent, List.map_append, List.map_singleton]
        rw [List.nodup_append]
        refine ⟨h.parents_unique, by simp, ?_⟩
        intro n hn n' hn'
        obtain ⟨p, hp, rfl⟩ := List.mem_map.1 hn
        rw [List.mem_singleton.1 hn']
        exact habsent p hp
    | lookUp | insertFile | increment => exact h.parents_unique
  · cases hadvance with
    | insertParent habsent =>
        intro p hp
        rcases List.mem_append.1 hp with hp | hp
        · exact h.parent_pos p hp
        · rw [List.mem_singleton.1 hp]
          exact rowid_pos _
    | lookUp | insertFile | increment => exact h.parent_pos
  · intro c₁ hc₁
    rcases List.mem_or_eq_of_mem_set hc₁ with hc₁ | rfl
    · exact h.bucket c₁ hc₁
    · cases hadvance <;> exact h.bucket c hmem
  · intro c₁ hc₁
    rcases List.mem_or_eq_of_mem_set hc₁ with hc₁ | rfl
    · exact (h.ready c₁ hc₁).of_keeps hkeeps hparents
    · exact ready_of_advance hadvance

/-- A new request keeps the tables in order. -/
theorem Orderly.request (h : Orderly s) {bucket : Option Bytes} (hbucket : bucket.isSome = true)
    (dir : DirArguments) (file : FileArguments) :
    Orderly { s with creators := s.creators ++ [⟨bucket, dir, file, .findParent⟩] } := by
  refine ⟨h.parents_unique, h.parent_pos, ?_, ?_, ?_⟩
  · intro c hc
    rcases List.mem_append.1 hc with hc | hc
    · exact h.bucket c hc
    · rw [List.mem_singleton.1 hc]
      exact hbucket
  · intro c hc
    rcases List.mem_append.1 hc with hc | hc
    · exact h.ready c hc
    · rw [List.mem_singleton.1 hc]
      trivial
  · intro r hr
    rw [List.countP_append, List.countP_singleton, h.subscriptions r hr]
    simp [Creator.holds, CreateStage.isCreated]

/-! ### Undisturbed runs -/

/-- A `CREATE` request that can be read. -/
theorem serverStep_create (bucket : Option Bytes) {released : Bytes → Bytes}
    {message request : Bytes} {dir : DirArguments} {file : FileArguments}
    (hcommand : commandDispatcher message = some (.create, request))
    (hcreate : clientRequestsCreate nl released request = .create dir file) :
    serverStep nl s (.request bucket released message) =
      some { s with creators := s.creators ++ [⟨bucket, dir, file, .findParent⟩] } := by
  simp only [serverStep, hcommand, hcreate]

theorem CreateOutcome.of_path {outcome : CreateOutcome} {path : Bytes}
    (h : outcome.path = some path) : ∃ dir file, outcome = .create dir file ∧ file.path = path := by
  cases outcome with
  | error reply => cases h
  | create dir file => exact ⟨dir, file, rfl, Option.some.inj h⟩

/-- What a step does: a request that the server reads as it was meant, or a query. -/
theorem createActionStep_cases {a : CreateAction} (h : createActionStep nl s a = some s')
    (hundisturbed : undisturbed nl s a = true) :
    (∃ bucket released f dir file, a = .request bucket released f ∧ bucket.isSome = true ∧
      file.path = f.path ∧
      s' = { s with creators := s.creators ++ [⟨bucket, dir, file, .findParent⟩] }) ∨
    ∃ k localname c names' c', a = .query k localname ∧ s.creators[k]? = some c ∧
      createStep s.names c localname = some (names', c') ∧ s' = ⟨names', s.creators.set k c'⟩ := by
  cases a with
  | request bucket released f =>
      obtain ⟨hbucket, hread⟩ := Bool.and_eq_true_iff.1 hundisturbed
      obtain ⟨dir, file, hcreate, hpath⟩ := CreateOutcome.of_path (beq_iff_eq.1 hread)
      refine .inl ⟨bucket, released, f, dir, file, rfl, hbucket, hpath, ?_⟩
      have hserver := serverStep_create (s := s) bucket (commandDispatcher_createCachedFile f)
        hcreate
      exact Option.some.inj (h.symm.trans hserver)
  | query k localname =>
      refine .inr ?_
      rcases serverStep_cases h with ⟨_, _, _, haction, -⟩ | ⟨_, _, c, names', c', haction, hrest⟩
      · cases haction
      · cases haction
        exact ⟨k, localname, c, names', c', rfl, hrest⟩

theorem orderly_of_createActionStep {a : CreateAction} (hs : Orderly s)
    (hundisturbed : undisturbed nl s a = true) (h : createActionStep nl s a = some s') :
    Orderly s' := by
  rcases createActionStep_cases h hundisturbed with
    ⟨bucket, _, _, dir, file, -, hbucket, -, rfl⟩ |
    ⟨k, localname, c, names', c', rfl, hc, hstep, rfl⟩
  · exact hs.request hbucket dir file
  · have hmem := List.mem_of_getElem? hc
    have hundisturbed' : c.undisturbed s.names = true := by
      simpa only [undisturbed, hc, Option.all_some] using hundisturbed
    have hpending : c.stage.isCreated = false := by
      have hpos := Nat.zero_lt_of_lt (remaining_createStep hstep)
      cases hstage : c.stage with
      | created fileId =>
          rw [hstage] at hpos
          exact absurd hpos (lt_irrefl 0)
      | _ => rfl
    exact hs.advance hc hpending (advance_of_createStep hs.parent_pos (hs.bucket c hmem)
      (hs.ready c hmem) hundisturbed' hstep)

/-- The requests are those of the clients, in the order in which they were sent. -/
theorem paths_of_run {as : List CreateAction}
    (halong : Along (createActionStep nl) (fun s a _ => undisturbed nl s a = true) s as)
    (hrun : run (createActionStep nl) s as = some t) :
    t.creators.map (·.file.path) =
      s.creators.map (·.file.path) ++ as.filterMap CreateAction.path := by
  induction as generalizing s with
  | nil =>
      cases hrun
      rw [List.filterMap_nil, List.append_nil]
  | cons a as ih =>
      obtain ⟨s', hs', hrest⟩ := run_cons.1 hrun
      obtain ⟨hundisturbed, halong'⟩ := halong s' hs'
      rw [ih halong' hrest]
      rcases createActionStep_cases hs' hundisturbed with
        ⟨bucket, released, f, dir, file, rfl, -, hpath, rfl⟩ |
        ⟨k, localname, c, names', c', rfl, hc, hstep, rfl⟩
      · simp [CreateAction.path, hpath]
      · have hfile := (createStep_spec hstep).2.1
        rw [List.filterMap_cons, map_set_of_eq hc (g := (·.file.path)) (congrArg (·.path) hfile)]
        rfl

/-- In order means serialised. -/
theorem Orderly.serialised (h : Orderly s) :
    Serialised (s.creators.map (·.file.path)) s := by
  refine ⟨h.parents_unique, s.names.remotename_unique, rfl, ?_, ?_, h.subscriptions⟩
  · intro c hc
    have hready := h.ready c hc
    unfold Creator.Ready at hready
    cases hstage : c.stage with
    | created fileId => exact .inr ⟨fileId, rfl⟩
    | failed =>
        simp only [hstage] at hready
    | _ => exact .inl (by simp [CreateStage.remaining])
  · intro c hc c' hc' fileId fileId' hcreated hcreated' hpath
    have hready := h.ready c hc
    have hready' := h.ready c' hc'
    simp only [Creator.Ready, hcreated] at hready
    simp only [Creator.Ready, hcreated'] at hready'
    obtain ⟨r, hr, rfl, hname⟩ := hready
    exact (hready'.eq_iff hr).2 (hname.trans hpath)

theorem orderly_empty : Orderly ⟨.empty, []⟩ :=
  ⟨List.nodup_nil, by simp [Names.empty], by simp, by simp, by simp [Names.empty]⟩

/-- **Requests that are not disturbed are serialised.**  However the queries of the requests
interleave: as long as no insertion comes too late, there is one row for each directory and each
file, and the requests for one path all end with the row of the path, which counts them. -/
theorem serialised_of_undisturbed {as : List CreateAction}
    (halong : Along (createActionStep nl) (fun s a _ => undisturbed nl s a = true) ⟨.empty, []⟩ as)
    (hrun : run (createActionStep nl) ⟨.empty, []⟩ as = some t) :
    Serialised (as.filterMap CreateAction.path) t := by
  have hstep : ∀ (s : Server) (a : CreateAction) (s' : Server), Orderly s →
      undisturbed nl s a = true → createActionStep nl s a = some s' → Orderly s' :=
    fun s a s' hs hundisturbed h => orderly_of_createActionStep hs hundisturbed h
  have horderly : Orderly t := run_inv hstep orderly_empty halong hrun
  have hpaths := paths_of_run halong hrun
  rw [List.map_nil, List.nil_append] at hpaths
  exact hpaths ▸ horderly.serialised

/-- Two clients create the same file, one after the other. -/
def createTwice : List CreateAction :=
  [.request (some (ascii "bucket")) id (.ofName (ascii "a")), .query 0 (ascii "dddddd"),
    .query 0 (ascii "dddddd"), .query 0 (ascii "ffffff"), .query 0 (ascii "ffffff"),
    .request (some (ascii "bucket")) id (.ofName (ascii "a")), .query 1 (ascii "eeeeee"),
    .query 1 (ascii "gggggg"), .query 1 (ascii "gggggg")]

theorem serialised_createTwice :
    ∃ t, run (createActionStep .lineFeed) ⟨.empty, []⟩ createTwice = some t ∧
      Serialised [ascii "a", ascii "a"] t := by
  obtain ⟨t, ht⟩ : ∃ t, run (createActionStep .lineFeed) ⟨.empty, []⟩ createTwice = some t :=
    Option.isSome_iff_exists.1 (by decide +kernel)
  exact ⟨t, ht, serialised_of_undisturbed (by decide +kernel) ht⟩

/-- Two clients create the same file, and each looks for the rows before the other inserts them. -/
def createTogether : List CreateAction :=
  [.request (some (ascii "bucket")) id (.ofName (ascii "a")),
    .request (some (ascii "bucket")) id (.ofName (ascii "a")),
    .query 0 (ascii "dddddd"), .query 1 (ascii "eeeeee"),
    .query 0 (ascii "dddddd"), .query 1 (ascii "eeeeee"),
    .query 0 (ascii "ffffff"), .query 1 (ascii "gggggg"),
    .query 0 (ascii "ffffff"), .query 1 (ascii "gggggg")]

/-- There are two rows for the directory then, and the second client gets no reply. -/
theorem not_serialised_createTogether :
    ∃ t, run (createActionStep .lineFeed) ⟨.empty, []⟩ createTogether = some t ∧
      t.names.parents.map (·.remotename) = [ascii "/", ascii "/"] ∧
      t.creators.map (·.stage) = [.created 1, .failed] ∧
      ¬ Serialised (createTogether.filterMap CreateAction.path) t := by
  obtain ⟨t, ht⟩ : ∃ t, run (createActionStep .lineFeed) ⟨.empty, []⟩ createTogether = some t :=
    Option.isSome_iff_exists.1 (by decide +kernel)
  have hrows : (run (createActionStep .lineFeed) ⟨.empty, []⟩ createTogether).map
      (fun t => (t.names.parents.map (·.remotename), t.creators.map (·.stage))) =
        some ([ascii "/", ascii "/"], [.created 1, .failed]) := by
    decide +kernel
  rw [ht, Option.map_some, Option.some_inj, Prod.mk.injEq] at hrows
  refine ⟨t, ht, hrows.1, hrows.2, fun h => ?_⟩
  have hunique := h.parents_unique
  rw [hrows.1] at hunique
  revert hunique
  decide

end AwsS3fs
