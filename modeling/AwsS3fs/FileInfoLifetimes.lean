/-
**How long a pointer to file information may be used.**

`S3FileStat` hands out a pointer into the cache of file information, and its callers go on using it
without the mutex: `s3fs_open` (`fuseif.c`) holds the pointer to the information on the directory
while it looks up the file, and `S3Chmod` (`s3if.c`) writes through its pointer after it has locked
the caches once more.  Meanwhile the same thread and the others look up files.  The table expires
the entry that was used least recently, so what counts is how many other names have been used
since, however often.

Main definitions:

* `AwsS3fs.InfoSection.uses`, `AwsS3fs.InfoSection.Drops` — the name that a step makes the most
  recent one, and a step that takes a name out of the table;
* `AwsS3fs.others` — the number of other names in a list of names;
* `AwsS3fs.FileInfos.Behind` — the names behind an entry are among those that have been used since;
* `AwsS3fs.FileInfos.Usable` — a pointer may be used.

Main results:

* `AwsS3fs.FileInfos.behind_of_run` — the entry stays while few other names are used;
* `AwsS3fs.FileInfos.pointer_usable` — **a pointer may be used until as many other names have been
  used as there are entries**, and no longer.
-/

import AwsS3fs.FileInfoMemory
import Mathlib.Data.List.Dedup

set_option relaxedAutoImplicit false
set_option autoImplicit false

namespace AwsS3fs

open CLib Allocations Runs StatCache

/-! ### Names that are used -/

/-- The name that a step looks for or puts into the table. -/
def InfoSection.uses : InfoSection → Option Bytes
  | .fileStat _ file =>
      if isS3DirectoryFile <:+ normalizePath file then none else some (normalizePath file)
  | .createLink linkname _ _ _ => some linkname
  | .mkdir cleanName _ => some cleanName
  | _ => none

/-- A step that takes a name out of the table, or the information that is there for it. -/
def InfoSection.Drops (name : Bytes) : InfoSection → Prop
  | .createLink linkname _ _ _ => linkname = name
  | .deleteFile cleanName => cleanName = name
  | .destroy => True
  | _ => False

/-- A step after which the name that it uses is in the table, and that takes no other name out of it
but the one that expires. -/
def InfoSection.fills : InfoSection → Bool
  | .mkdir _ _ | .deleteFile _ | .destroy => false
  | _ => true

/-- The names that are used in a sequence of steps. -/
def usedNames (steps : List InfoSection) : List Bytes := steps.filterMap (·.uses)

theorem append_usedNames_cons (names : List Bytes) (a : InfoSection) (steps : List InfoSection) :
    names ++ usedNames (a :: steps) = names ++ a.uses.toList ++ usedNames steps := by
  rw [usedNames, List.filterMap_cons, List.append_assoc]
  cases a.uses <;> rfl

/-- The number of different names in a list, other than `name`. -/
def others (name : Bytes) (names : List Bytes) : ℕ := (names.filter (· ≠ name)).dedup.length

variable {name g : Bytes} {names names' : List Bytes}

/-- Different names in a list are no more than there are. -/
theorem length_le_others {l : List Bytes} (hl : l.Nodup) (h : ∀ g ∈ l, g ∈ names ∧ g ≠ name) :
    l.length ≤ others name names := by
  refine (List.subperm_of_subset hl fun g hg => ?_).length_le
  simpa [List.mem_dedup] using h g hg

theorem others_mono (h : names ⊆ names') : others name names ≤ others name names' := by
  refine length_le_others (List.nodup_dedup _) fun g hg => ?_
  have hmem : g ∈ names ∧ g ≠ name := by simpa [List.mem_dedup] using hg
  exact ⟨h hmem.1, hmem.2⟩

namespace StatCache

variable {max n : ℕ}

theorem delete_append_cons {before after : StatCache ℕ} (hne : g ≠ name) :
    delete (before ++ ⟨name, n⟩ :: after) g = before.delete g ++ ⟨name, n⟩ :: after.delete g := by
  simp [delete, List.filter_append, Ne.symm hne]

theorem deleteStatEntry_eq_delete (table : StatCache ℕ) (g : Bytes) :
    table.deleteStatEntry g = table.delete g := by
  rw [deleteStatEntry]
  cases hfind : table.findStr g with
  | none =>
      refine (List.filter_eq_self.2 fun entry hentry => ?_).symm
      have hname : entry.filename ≠ g := by
        rintro rfl
        exact findStr_eq_none_iff.1 hfind (List.mem_map_of_mem hentry)
      simpa using hname
  | some entry =>
      simp only []
      rw [filename_of_findStr hfind]

/-- When an entry has been taken out, none has to expire for another one. -/
theorem length_delete_of_findStr {table : StatCache ℕ} {entry : StatCacheEntry ℕ}
    (hw : WellFormed max table) (hfind : table.findStr g = some entry) :
    (table.delete g).length + 1 - max = 0 := by
  have hlt := length_deleteStatEntry_lt (mem_filenames_of_findStr hfind)
  rw [deleteStatEntry_eq_delete] at hlt
  have hle := hw.length_le
  omega

/-- What is put behind the last entry expires the first one, and no other. -/
theorem drop_append_cons {before after : StatCache ℕ} {entry : StatCacheEntry ℕ}
    (last : StatCacheEntry ℕ) (hle : (before ++ entry :: after).length ≤ max) :
    (∃ before', (before ++ entry :: after).drop ((before ++ entry :: after).length + 1 - max) ++
        [last] = before' ++ entry :: (after ++ [last])) ∨
      before = [] ∧ after.length + 1 = max := by
  rw [List.length_append, List.length_cons] at hle
  by_cases hstay : before.length + (after.length + 1) + 1 - max ≤ before.length
  · left
    refine ⟨before.drop (before.length + (after.length + 1) + 1 - max), ?_⟩
    rw [List.length_append, List.length_cons, List.drop_append_of_le_length hstay,
      List.append_assoc, List.cons_append]
  · right
    exact ⟨List.eq_nil_of_length_eq_zero (by omega), by omega⟩

end StatCache

namespace FileInfos

variable {max n : ℕ} {s s' t : FileInfos} {table table' : StatCache ℕ}

/-! ### The entries behind an entry -/

/-- The entry of `name` is in the table, and the names behind it are among `names`. -/
def Behind (name : Bytes) (n : ℕ) (names : List Bytes) (table : StatCache ℕ) : Prop :=
  ∃ before after, table = before ++ ⟨name, n⟩ :: after ∧
    ∀ g ∈ filenames after, g ∈ names ∧ g ≠ name

/-- The names behind the entry are the others of `names`. -/
def JustBehind (name : Bytes) (n : ℕ) (names : List Bytes) (table : StatCache ℕ) : Prop :=
  ∃ before after, table = before ++ ⟨name, n⟩ :: after ∧
    ∀ g, g ∈ filenames after ↔ g ∈ names ∧ g ≠ name

theorem Behind.mono (h : Behind name n names table) (hnames : names ⊆ names') :
    Behind name n names' table := by
  obtain ⟨before, after, htable, hafter⟩ := h
  exact ⟨before, after, htable, fun g hg => ⟨hnames (hafter g hg).1, (hafter g hg).2⟩⟩

theorem Behind.mem (h : Behind name n names table) : n ∈ table.map (·.data) := by
  obtain ⟨before, after, rfl, -⟩ := h
  simp

theorem filenames_append (l r : StatCache ℕ) : filenames (l ++ r) = l.filenames ++ r.filenames :=
  List.map_append

theorem Behind.delete (h : Behind name n names table) (hne : g ≠ name) :
    Behind name n names (table.delete g) := by
  obtain ⟨before, after, rfl, hafter⟩ := h
  refine ⟨StatCache.delete before g, StatCache.delete after g, delete_append_cons hne,
    fun g' hg' => hafter g' ?_⟩
  rw [filenames_delete] at hg'
  exact List.mem_of_mem_filter hg'

/-- **An entry is put behind the last one** of a table that lacks its name: the first entry does not
expire if too few names have been used. -/
theorem Behind.append (h : Behind name n names table) (hw : WellFormed max table)
    (hg : g ∉ table.filenames) (hmem : g ∈ names) (hcount : others name names < max) (m : ℕ) :
    Behind name n names (table.drop (table.length + 1 - max) ++ [⟨g, m⟩]) := by
  obtain ⟨before, after, rfl, hafter⟩ := h
  have hne : g ≠ name := by
    rintro rfl
    exact hg (by simp [filenames])
  have hafter' : ∀ g' ∈ filenames (after ++ [⟨g, m⟩]), g' ∈ names ∧ g' ≠ name := by
    intro g' hg'
    rw [filenames_append] at hg'
    rcases List.mem_append.1 hg' with hg' | hg'
    · exact hafter g' hg'
    · obtain rfl := List.mem_singleton.1 hg'
      exact ⟨hmem, hne⟩
  rcases drop_append_cons ⟨g, m⟩ hw.length_le with ⟨before', hbefore⟩ | ⟨rfl, hlength⟩
  · exact ⟨before', after ++ [⟨g, m⟩], hbefore, hafter'⟩
  · -- the entry is the first one, and all the others have been used
    have hnodup : (filenames (after ++ [⟨g, m⟩])).Nodup := by
      have hdistinct := hw.distinct
      rw [filenames_append] at hdistinct hg ⊢
      refine List.nodup_append.2 ⟨?_, List.nodup_singleton g, ?_⟩
      · exact (List.nodup_cons.1 hdistinct).2
      · rintro g' hg' g'' hg'' rfl
        obtain rfl := List.mem_singleton.1 hg''
        exact hg (List.mem_append_right _ (List.mem_cons_of_mem _ hg'))
    have hle := length_le_others hnodup hafter'
    have hlast : (filenames [(⟨g, m⟩ : StatCacheEntry ℕ)]).length = 1 := rfl
    rw [filenames_append, List.length_append, hlast, filenames, List.length_map] at hle
    omega

theorem notMem_filenames_delete (table : StatCache ℕ) (g : Bytes) :
    g ∉ (table.delete g).filenames := by
  rw [filenames_delete]
  simp

/-- A search that finds a name puts its entry behind the last one. -/
theorem Behind.search (h : Behind name n names table) (hw : WellFormed max table)
    (hmem : g ∈ names) (hcount : others name names < max) :
    Behind name n names (table.searchStatEntry g).2 := by
  rw [searchStatEntry]
  cases hfind : table.findStr g with
  | none => exact h
  | some entry =>
      have hname := filename_of_findStr hfind
      simp only [hname]
      by_cases hg : g = name
      · obtain ⟨before, after, rfl, hafter⟩ := h
        have hentry : findStr (before ++ ⟨name, n⟩ :: after) g = some ⟨name, n⟩ :=
          (findStr_eq_some_iff hw.distinct).2 ⟨by simp, hg.symm⟩
        obtain rfl := Option.some.inj (hentry.symm.trans hfind)
        exact ⟨_, [], rfl, fun g' hg' => absurd hg' List.not_mem_nil⟩
      · have hw' := hw.deleteStatEntry g
        rw [deleteStatEntry_eq_delete] at hw'
        have happend := (h.delete hg).append hw' (notMem_filenames_delete table g) hmem hcount
          entry.data
        rw [length_delete_of_findStr hw hfind, List.drop_zero] at happend
        obtain ⟨filename, data⟩ := entry
        obtain rfl : filename = g := hname
        exact happend

theorem Behind.insert (h : Behind name n names table) (hpos : 0 < max) (hmax : max < 2 ^ 31)
    (hw : WellFormed max table) (hfind : table.findStr g = none) (hmem : g ∈ names)
    (hcount : others name names < max) (m : ℕ) :
    Behind name n names (table.insertCacheElement max g m) := by
  rw [insertCacheElement_eq hpos hmax hw.length_le hfind]
  exact h.append hw (findStr_eq_none_iff.1 hfind) hmem hcount m

/-- **A step leaves the entry in the table**, unless it drops it or too many names have been
used. -/
theorem Behind.step (hpos : 0 < max) (hmax : max < 2 ^ 31) (hw : WellFormed max table)
    (h : Behind name n names table) {a : InfoSection} (hstep : TableStep max table a table')
    (hdrops : ¬ a.Drops name) (hcount : others name (names ++ a.uses.toList) < max) :
    Behind name n (names ++ a.uses.toList) table' := by
  have h' := h.mono (List.subset_append_left names a.uses.toList)
  cases hstep with
  | secret hsecret => exact h'
  | hit hsecret hfind =>
      refine h'.search hw ?_ hcount
      simp [InfoSection.uses, hsecret]
  | miss hsecret hfind hm =>
      refine h'.insert hpos hmax hw hfind ?_ hcount _
      simp [InfoSection.uses, hsecret]
  | createLink hm =>
      rw [deleteStatEntry_eq_delete]
      have hw' := hw.deleteStatEntry
      simp only [deleteStatEntry_eq_delete] at hw'
      refine (h'.delete hdrops).insert hpos hmax (hw' _) ?_ ?_ hcount _
      · exact findStr_eq_none_iff.2 (notMem_filenames_delete _ _)
      · simp [InfoSection.uses]
  | mkdir =>
      refine h'.search hw ?_ hcount
      simp [InfoSection.uses]
  | deleteFile =>
      rw [deleteStatEntry_eq_delete]
      exact h'.delete hdrops
  | destroy => exact absurd trivial hdrops
  | use ha => exact h'

/-! ### When the entry expires -/

/-- **A name is used**: its entry goes behind the last one, and the first one expires if the table
is full.  The entry of `name` expires if it comes first. -/
theorem JustBehind.touch (h : JustBehind name n names table) (hw : WellFormed max table)
    (hdata : (table.map (·.data)).Nodup) (hne : g ≠ name) {m : ℕ} (hm : m ≠ n) :
    JustBehind name n (names ++ [g])
        ((table.delete g).drop ((table.delete g).length + 1 - max) ++ [⟨g, m⟩]) ∨
      n ∉ ((table.delete g).drop ((table.delete g).length + 1 - max) ++
        [(⟨g, m⟩ : StatCacheEntry ℕ)]).map (·.data) := by
  obtain ⟨before, after, rfl, hafter⟩ := h
  have hw' := hw.deleteStatEntry g
  rw [deleteStatEntry_eq_delete, delete_append_cons hne] at hw'
  rw [delete_append_cons hne]
  rcases drop_append_cons ⟨g, m⟩ hw'.length_le with ⟨before', hbefore⟩ | ⟨hnil, hlength⟩
  · refine .inl ⟨before', StatCache.delete after g ++ [⟨g, m⟩], hbefore, fun g' => ?_⟩
    have hlast : filenames [(⟨g, m⟩ : StatCacheEntry ℕ)] = [g] := rfl
    rw [filenames_append, hlast, filenames_delete, List.mem_append, List.mem_filter, hafter,
      List.mem_append, List.mem_singleton]
    by_cases hg : g' = g
    · simp [hg, hne]
    · simp [hg]
  · right
    have hdrop : (StatCache.delete before g ++ ⟨name, n⟩ :: StatCache.delete after g).length + 1 -
        max = 1 := by
      rw [hnil, List.length_append, List.length_cons, List.length_nil]
      omega
    have hnot : n ∉ after.map (·.data) := by
      rw [List.map_append, List.map_cons] at hdata
      exact (List.nodup_cons.1 (List.nodup_append.1 hdata).2.1).1
    rw [hdrop, hnil, List.nil_append, List.drop_one, List.tail_cons, List.map_append]
    intro hmem
    rcases List.mem_append.1 hmem with hmem | hmem
    · exact hnot ((List.filter_sublist.map _).subset hmem)
    · exact hm (List.mem_singleton.1 hmem).symm

theorem JustBehind.of_step (hpos : 0 < max) (hmax : max < 2 ^ 31) (hw : WellFormed max table)
    (hdata : (table.map (·.data)).Nodup) (h : JustBehind name n names table) {a : InfoSection}
    (hstep : TableStep max table a table') (hfills : a.fills = true) (hne : a.uses ≠ some name) :
    JustBehind name n (names ++ a.uses.toList) table' ∨ n ∉ table'.map (·.data) := by
  have hmem : n ∈ table.map (·.data) := by
    obtain ⟨before, after, rfl, -⟩ := h
    simp
  have hfound : ∀ entry ∈ table, entry.filename ≠ name → entry.data ≠ n := by
    intro entry hentry hname hn
    obtain ⟨before, after, rfl, -⟩ := h
    have hthis : (⟨name, n⟩ : StatCacheEntry ℕ) ∈ before ++ ⟨name, n⟩ :: after := by simp
    exact hname (congrArg StatCacheEntry.filename (List.inj_on_of_nodup_map hdata hentry hthis hn))
  cases hstep with
  | secret hsecret =>
      left
      simpa [InfoSection.uses, hsecret] using h
  | @hit w file hsecret hfind =>
      have huses : (InfoSection.fileStat w file).uses = some (normalizePath file) := if_neg hsecret
      rw [huses] at hne ⊢
      have hne' : normalizePath file ≠ name := fun heq => hne (congrArg some heq)
      obtain ⟨entry, hentry⟩ := Option.ne_none_iff_exists'.1 hfind
      have hname := filename_of_findStr hentry
      have htouch := h.touch hw hdata hne' (hfound entry (List.mem_of_find?_eq_some hentry)
        (hname ▸ hne'))
      rw [length_delete_of_findStr hw hentry, List.drop_zero] at htouch
      rw [searchStatEntry, hentry]
      obtain ⟨filename, data⟩ := entry
      obtain rfl : filename = normalizePath file := hname
      exact htouch
  | @miss w file m hsecret hfind hm =>
      have huses : (InfoSection.fileStat w file).uses = some (normalizePath file) := if_neg hsecret
      rw [huses] at hne ⊢
      have hne' : normalizePath file ≠ name := fun heq => hne (congrArg some heq)
      have hsame : table.delete (normalizePath file) = table := by
        rw [← deleteStatEntry_eq_delete, StatCache.deleteStatEntry, hfind]
      have htouch := h.touch (m := m) hw hdata hne' fun heq => hm (heq.symm ▸ hmem)
      rw [hsame] at htouch
      rw [insertCacheElement_eq hpos hmax hw.length_le hfind]
      exact htouch
  | @createLink linkname path fi unsetFd m hm =>
      have huses : (InfoSection.createLink linkname path fi unsetFd).uses = some linkname := rfl
      rw [huses] at hne ⊢
      have hne' : linkname ≠ name := fun heq => hne (congrArg some heq)
      have hfind : findStr (table.deleteStatEntry linkname) linkname = none := by
        rw [findStr_deleteStatEntry, if_pos rfl]
      have htouch := h.touch (m := m) hw hdata hne' fun heq => hm (heq.symm ▸ hmem)
      rw [insertCacheElement_eq hpos hmax (hw.deleteStatEntry linkname).length_le hfind,
        deleteStatEntry_eq_delete]
      exact htouch
  | mkdir | deleteFile | destroy => cases hfills
  | use ha =>
      left
      have huses : a.uses = none := by
        cases a with
        | read fi | assign fi file | keepTarget fi linkContents => rfl
        | _ => cases ha
      rw [huses, Option.toList_none, List.append_nil]
      exact h

/-! ### Runs -/

/-- **The entry stays in the table** while too few other names are used for it to expire. -/
theorem behind_of_run (hpos : 0 < max) (hmax : max < 2 ^ 31) {later : List InfoSection} :
    ∀ {names : List Bytes} {s : FileInfos}, WellKept max s → Behind name n names s.table →
      run (step max) s later = some t → (∀ a ∈ later, ¬ a.Drops name) →
      others name (names ++ usedNames later) < max →
      Behind name n (names ++ usedNames later) t.table := by
  induction later with
  | nil =>
      intro names s hs h hrun _ _
      obtain rfl := Option.some.inj hrun
      rw [usedNames, List.filterMap_nil, List.append_nil]
      exact h
  | cons a later ih =>
      intro names s hs h hrun hdrops hcount
      obtain ⟨s', hstep, hrun'⟩ := run_cons.1 hrun
      have hdone := Done.of_step hpos hmax hs hstep
      rw [append_usedNames_cons] at hcount ⊢
      refine ih hdone.wellKept (h.step hpos hmax hs.wellFormed hdone.tableStep
        (hdrops a List.mem_cons_self) ?_) hrun' (fun b hb => hdrops b (List.mem_cons_of_mem _ hb))
        hcount
      exact (others_mono (List.subset_append_left _ _)).trans_lt hcount

/-- The entry has expired for good, or the names behind it are those that have been used. -/
theorem justBehind_of_run (hpos : 0 < max) (hmax : max < 2 ^ 31) {later : List InfoSection} :
    ∀ {names : List Bytes} {s : FileInfos}, WellKept max s →
      (JustBehind name n names s.table ∨
        n ∉ s.pointers ∧ n < s.memory.infos.contents.length) →
      run (step max) s later = some t → (∀ a ∈ later, a.fills = true ∧ a.uses ≠ some name) →
      JustBehind name n (names ++ usedNames later) t.table ∨ n ∉ t.pointers := by
  induction later with
  | nil =>
      intro names s hs h hrun _
      obtain rfl := Option.some.inj hrun
      rw [usedNames, List.filterMap_nil, List.append_nil]
      exact h.imp_right And.left
  | cons a later ih =>
      intro names s hs h hrun hfills
      obtain ⟨s', hstep, hrun'⟩ := run_cons.1 hrun
      have hdone := Done.of_step hpos hmax hs hstep
      rw [append_usedNames_cons]
      obtain ⟨hfill, hne⟩ := hfills a List.mem_cons_self
      refine ih hdone.wellKept ?_ hrun' fun b hb => hfills b (List.mem_cons_of_mem _ hb)
      rcases h with h | ⟨hnot, hlt⟩
      · have hmem : n ∈ s.pointers := by
          obtain ⟨before, after, htable, -⟩ := h
          rw [pointers, htable]
          simp
        refine (h.of_step hpos hmax hs.wellFormed hs.owned.infos.distinct hdone.tableStep hfill
          hne).imp_right fun hgone => ⟨hgone, ?_⟩
        exact (hs.owned.infos.live n hmem).1.trans_le hdone.length_le
      · refine .inr ⟨fun hmem => ?_, hlt.trans_le hdone.length_le⟩
        rcases hdone.fresh n hmem with hold | hnew
        · exact hnot hold
        · omega

/-- A pointer may be used: no use of it is an error. -/
def Usable (max : ℕ) (s : FileInfos) (n : ℕ) : Prop :=
  ∀ a : InfoSection, a.pointer = some n → ∃ s', s.perform max a = .ok s'

theorem usable_iff (hpos : 0 < max) (hmax : max < 2 ^ 31) (h : WellKept max s) :
    s.Usable max n ↔ n ∈ s.pointers := by
  constructor
  · intro husable
    by_contra hn
    obtain ⟨s', hs'⟩ := husable (.read n) rfl
    rw [perform_eq_error h rfl hn] at hs'
    cases hs'
  · intro hn a ha
    obtain ⟨s', hs', -⟩ := h.perform hpos hmax a fun m hm =>
      Option.some.inj (ha.symm.trans hm) ▸ hn
    exact ⟨s', hs'⟩

/-- What `S3FileStat` has found is the last entry. -/
theorem justBehind_fileStat (hpos : 0 < max) (hmax : max < 2 ^ 31) (h : WellKept max s)
    {w : StatWorld} {file : Bytes} (hstat : s.fileStat max w file = .ok (some n, s')) :
    WellKept max s' ∧ JustBehind (normalizePath file) n [] s'.table := by
  obtain ⟨result, hresult, hdone, -, hentry⟩ := exists_fileStat hpos hmax h w file
  obtain rfl := Except.ok.inj (hresult.symm.trans hstat)
  have hfound := (hentry n rfl).2
  have hlast : ∀ (before : StatCache ℕ) (entry : StatCacheEntry ℕ),
      s'.table = before ++ [entry] → entry.filename = normalizePath file →
      JustBehind (normalizePath file) n [] s'.table := by
    intro before entry htable hname
    have hmem : entry ∈ s'.table := htable ▸ List.mem_append_right _ (List.mem_singleton_self _)
    obtain rfl := Option.some.inj
      (((findStr_eq_some_iff hdone.wellKept.wellFormed.distinct).2 ⟨hmem, hname⟩).symm.trans hfound)
    exact ⟨before, [], htable, fun g => by simp [filenames]⟩
  have hsecret : ¬ isS3DirectoryFile <:+ normalizePath file := by
    intro hsecret
    have hnone : s.fileStat max w file = .ok (none, s) := if_pos hsecret
    cases (Except.ok.inj (hnone.symm.trans hstat))
  refine ⟨hdone.wellKept, ?_⟩
  have hstep := hdone.tableStep
  simp only [] at hstep
  generalize htable : s'.table = table at hstep
  cases hstep with
  | secret hthis => exact absurd hthis hsecret
  | hit _ hfind =>
      obtain ⟨entry, hold⟩ := Option.ne_none_iff_exists'.1 hfind
      have hsearch : s'.table = s.table.delete entry.filename ++ [entry] := by
        rw [htable, searchStatEntry, hold]
      rw [← htable]
      exact hlast _ entry hsearch (filename_of_findStr hold)
  | @miss _ _ m _ hfind _ =>
      rw [insertCacheElement_eq hpos hmax h.wellFormed.length_le hfind] at htable ⊢
      rw [← htable]
      exact hlast _ ⟨normalizePath file, m⟩ htable rfl
  | use hpointer => cases hpointer

theorem JustBehind.others_lt (h : JustBehind name n names table) (hw : WellFormed max table) :
    others name names < max := by
  obtain ⟨before, after, rfl, hafter⟩ := h
  have hle : others name names ≤ (filenames after).length := by
    refine (List.subperm_of_subset (List.nodup_dedup _) fun g hg => ?_).length_le
    exact (hafter g).2 (by simpa [List.mem_dedup] using hg)
  have hlength := hw.length_le
  rw [List.length_append, List.length_cons] at hlength
  rw [filenames, List.length_map] at hle
  omega

/-- **How long a pointer may be used** that `S3FileStat` has stored, whatever the threads did before
and do later, in whatever order: as long as the file is not dropped and fewer other names have been
used since than the table has room for, and if only other names are looked up and linked, no
longer than that. -/
theorem pointer_usable (hpos : 0 < max) (hmax : max < 2 ^ 31) {earlier later : List InfoSection}
    {w : StatWorld} {file : Bytes} {s₁ : FileInfos}
    (hrun : run (step max) empty earlier = some s)
    (hstat : s.fileStat max w file = .ok (some n, s₁))
    (hlater : run (step max) s₁ later = some t) :
    ((∀ a ∈ later, ¬ a.Drops (normalizePath file)) →
      others (normalizePath file) (usedNames later) < max → t.Usable max n) ∧
    ((∀ a ∈ later, a.fills = true ∧ a.uses ≠ some (normalizePath file)) →
      (t.Usable max n ↔ others (normalizePath file) (usedNames later) < max)) := by
  obtain ⟨hkept, hjust⟩ := justBehind_fileStat hpos hmax (wellKept_of_run hpos hmax hrun) hstat
  have hkept' : WellKept max t :=
    run_inv_of_step (fun _ _ _ h hs => (Done.of_step hpos hmax h hs).wellKept) hkept hlater
  have hbehind : Behind (normalizePath file) n [] s₁.table := by
    obtain ⟨before, after, htable, hafter⟩ := hjust
    exact ⟨before, after, htable, fun g hg => (hafter g).1 hg⟩
  have hstays : (∀ a ∈ later, ¬ a.Drops (normalizePath file)) →
      others (normalizePath file) (usedNames later) < max → t.Usable max n :=
    fun hdrops hcount => (usable_iff hpos hmax hkept').2
      (behind_of_run hpos hmax hkept hbehind hlater hdrops hcount).mem
  refine ⟨hstays, fun hfills => ⟨fun husable => ?_, hstays fun a ha hdrop => ?_⟩⟩
  · rcases justBehind_of_run hpos hmax hkept (.inl hjust) hlater hfills with hstill | hgone
    · exact hstill.others_lt hkept'.wellFormed
    · exact absurd ((usable_iff hpos hmax hkept').1 husable) hgone
  · -- a step that drops the file and fills the table creates a link in its place
    obtain ⟨hfill, hne⟩ := hfills a ha
    cases a with
    | createLink linkname path fi unsetFd => exact hne (congrArg some hdrop)
    | deleteFile cleanName => cases hfill
    | destroy => cases hfill
    | _ => exact hdrop

/-- In a table of two entries the pointer to the first file may be used after one other name has
been looked up twice, but not after two other names. -/
theorem pointer_usable_lookUps :
    ∃ s₁ t t', empty.fileStat 2 (oneFileCall "/a").toStatWorld (ascii "/a") = .ok (some 0, s₁) ∧
      run (step 2) s₁ [lookUp "/b", lookUp "/b"] = some t ∧ t.Usable 2 0 ∧
      run (step 2) s₁ [lookUp "/b", lookUp "/c"] = some t' ∧ ¬ t'.Usable 2 0 := by
  have hfirst : ((empty.fileStat 2 (oneFileCall "/a").toStatWorld (ascii "/a")).toOption.map
      fun r => (r.1, (run (step 2) r.2 [lookUp "/b", lookUp "/b"]).isSome,
        (run (step 2) r.2 [lookUp "/b", lookUp "/c"]).isSome)) = some (some 0, true, true) := by
    decide +kernel
  obtain ⟨⟨pointer, s₁⟩, hstat, hruns⟩ := Option.map_eq_some_iff.1 hfirst
  cases hresult : empty.fileStat 2 (oneFileCall "/a").toStatWorld (ascii "/a") with
  | error fault =>
      rw [hresult] at hstat
      cases hstat
  | ok result =>
      rw [hresult] at hstat
      obtain rfl := Option.some.inj hstat
      obtain ⟨rfl, hruns⟩ := Prod.ext_iff.1 hruns
      obtain ⟨hrun, hrun'⟩ := Prod.ext_iff.1 hruns
      obtain ⟨t, ht⟩ := Option.isSome_iff_exists.1 hrun
      obtain ⟨t', ht'⟩ := Option.isSome_iff_exists.1 hrun'
      have hempty : run (step 2) empty [] = some empty := rfl
      refine ⟨s₁, t, t', rfl, ht, ?_, ht', fun husable => ?_⟩
      · exact (pointer_usable (by decide) (by decide) hempty hresult ht).1
          (by simp [lookUp, InfoSection.Drops]) (by decide +kernel)
      · have hcount := ((pointer_usable (by decide) (by decide) hempty hresult ht').2
          (by decide +kernel)).1 husable
        exact absurd hcount (by decide +kernel)

end FileInfos

end AwsS3fs
