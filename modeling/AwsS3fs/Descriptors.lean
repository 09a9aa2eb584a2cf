/-
**The descriptors of local copies.**

The first time that a file is read, `S3ReadFile` (`s3if.c`) opens its local copy and keeps the
descriptor in the cache of file information; `S3FileClose` closes it.  The cache is free to forget
the entry in between.  The descriptor is then looked for in vain, and a new one is opened when the
file is read again.

Main definitions:

* `AwsS3fs.Volume.FromKernel` — a call as it comes from the kernel;
* `AwsS3fs.Volume.CopiesAgree` — **the invariant**: the descriptor in the entry of a file is that of
  its own copy;
* `AwsS3fs.Volume.Holds`, `AwsS3fs.Volume.Leaked` — an open descriptor that is in the entry of its
  file, or not.

Main results:

* `AwsS3fs.Volume.CopiesAgree.change` — every call keeps the invariant;
* `AwsS3fs.Volume.copies_kept_apart` — **a read or a close of a file never touches the descriptor of
  anything else**;
* `AwsS3fs.Volume.copy_closed_iff` — **when the descriptor of a copy is closed**: if the entry of
  the file has been in the cache all the time.
-/

import AwsS3fs.Volumes

set_option relaxedAutoImplicit false
set_option autoImplicit false

namespace AwsS3fs

open CLib StatCache Runs

namespace Volume

/-! ### The invariant -/

/-- **A call as it comes from the kernel**: its paths are normal, only regular files are closed, and
`open` gives a descriptor that is not in use, or `-1`. -/
structure FromKernel (v : Volume) (a : VolumeWorld × VolumeCall) : Prop where
  normal : ∀ path ∈ a.2.paths, normalizePath path = path
  regular : ∀ path f, a.2 = .fileClose path → (v.fileStat a.1 path).1 = .ok f →
    f.info.fileType = 102
  unused : 0 ≤ a.1.opened → v.descriptors a.1.opened = none
  failed : a.1.opened < 0 → a.1.opened = -1

/-- The descriptor in the entry of a regular file, if there is one, is that of its own copy. -/
def CopyAgrees (descriptors : ℤ → Option Descriptor) (filename : Bytes) (f : MountFile) : Prop :=
  f.info.fileType = 102 → ¬ isS3DirectoryFile <:+ filename ∧ (f.localFd = -1 ∨
    0 ≤ f.localFd ∧ ∃ localpath, descriptors f.localFd = some (.localCopy filename localpath))

/-- **The descriptors in the cache are those of the right copies.** -/
structure CopiesAgree (v : Volume) : Prop where
  wellFormed : WellFormed maxStatCacheSize v.cache
  entries : Entries (CopyAgrees v.descriptors) v.cache
  nonneg : ∀ fd, v.descriptors fd ≠ none → 0 ≤ fd

section Invariant

variable {w : VolumeWorld} {v v' : Volume} {file : Bytes}

/-- A descriptor that is opened or closed and is not that in the entry. -/
theorem CopyAgrees.update {descriptors : ℤ → Option Descriptor} {filename : Bytes} {f : MountFile}
    (h : CopyAgrees descriptors filename f) {fd : ℤ} (d : Option Descriptor)
    (hfd : f.info.fileType = 102 → 0 ≤ f.localFd → f.localFd ≠ fd) :
    CopyAgrees (Function.update descriptors fd d) filename f := by
  intro htype
  obtain ⟨hsecret, hclosed | ⟨hpos, localpath, hopen⟩⟩ := h htype
  · exact ⟨hsecret, .inl hclosed⟩
  · refine ⟨hsecret, .inr ⟨hpos, localpath, ?_⟩⟩
    rw [Function.update_of_ne (hfd htype hpos)]
    exact hopen

theorem CopiesAgree.fileStat (h : v.CopiesAgree) (w : VolumeWorld) (file : Bytes) :
    (v.fileStat w file).2.CopiesAgree where
  wellFormed := wellFormed_fileStat h.wellFormed file
  entries := h.entries.fileStat h.wellFormed fun _ hsecret _ _ => ⟨hsecret, .inl rfl⟩
  nonneg := h.nonneg

/-- A write that leaves the descriptor alone, or is not about a regular file. -/
theorem CopiesAgree.write (h : v.CopiesAgree) {f g : MountFile}
    (hfind : v.cache.findStr (normalizePath file) = some ⟨normalizePath file, some f⟩)
    (hkept : g.info.fileType = 102 → f.info.fileType = 102 ∧ g.localFd = f.localFd) :
    (v.write file g).CopiesAgree where
  wellFormed := wellFormed_write h.wellFormed file g
  entries := by
    refine h.entries.write (fun _ _ _ hP => hP) fun htype => ?_
    obtain ⟨htype', hfd⟩ := hkept htype
    rw [hfd]
    exact h.entries.of_findStr hfind htype'
  nonneg := h.nonneg

theorem CopiesAgree.deleteFile (h : v.CopiesAgree) (answer : WriteAnswer) (name : Bytes) :
    (v.deleteFile answer name).2.CopiesAgree where
  wellFormed := by
    rw [deleteFile_cache]
    exact h.wellFormed.deleteStatEntry name
  entries := by
    rw [deleteFile_cache, deleteFile_descriptors]
    exact h.entries.delete fun _ _ _ hP => hP
  nonneg := by
    rw [deleteFile_descriptors]
    exact h.nonneg

theorem CopiesAgree.copyObject (h : v.CopiesAgree) (w : VolumeWorld)
    (headers : List (Bytes × Bytes)) : (v.copyObject w file headers).CopiesAgree where
  wellFormed := by
    rw [copyObject_cache]
    exact h.wellFormed
  entries := by
    rw [copyObject_cache, copyObject_descriptors]
    exact h.entries
  nonneg := by
    rw [copyObject_descriptors]
    exact h.nonneg

/-- A descriptor that is opened. -/
theorem CopiesAgree.openFd (h : v.CopiesAgree) {fd : ℤ} (hpos : 0 ≤ fd)
    (hunused : v.descriptors fd = none) (d : Descriptor) :
    CopiesAgree { v with descriptors := Function.update v.descriptors fd (some d) } where
  wellFormed := h.wellFormed
  entries := by
    refine h.entries.mono fun filename f hP => hP.update _ fun htype hpos' heq => ?_
    obtain ⟨-, hclosed | ⟨-, localpath, hopen⟩⟩ := hP htype
    · omega
    · rw [heq, hunused] at hopen
      cases hopen
  nonneg := by
    intro fd' hfd'
    by_cases heq : fd' = fd
    · exact heq ▸ hpos
    · exact h.nonneg fd' (Function.update_of_ne heq (some d) v.descriptors ▸ hfd')

/-- A descriptor that is closed and is not in any entry. -/
theorem CopiesAgree.closeFd (h : v.CopiesAgree) {fd : ℤ}
    (hnone : Entries (fun _ f => f.info.fileType = 102 → 0 ≤ f.localFd → f.localFd ≠ fd) v.cache) :
    CopiesAgree { v with descriptors := Function.update v.descriptors fd none } where
  wellFormed := h.wellFormed
  entries := fun filename f hmem => (h.entries filename f hmem).update _ (hnone filename f hmem)
  nonneg := by
    intro fd' hfd'
    by_cases heq : fd' = fd
    · subst heq
      exact absurd (Function.update_self _ _ _) hfd'
    · exact h.nonneg fd' (Function.update_of_ne heq none v.descriptors ▸ hfd')

/-- No two files have the same descriptor. -/
theorem CopiesAgree.eq_of_fd (h : v.CopiesAgree) {p q : Bytes} {f g : MountFile}
    (hf : (⟨p, some f⟩ : StatCacheEntry MountData) ∈ v.cache)
    (hg : (⟨q, some g⟩ : StatCacheEntry MountData) ∈ v.cache) (htype : f.info.fileType = 102)
    (htype' : g.info.fileType = 102) (hpos : 0 ≤ f.localFd) (heq : f.localFd = g.localFd) :
    p = q := by
  obtain ⟨-, hclosed | ⟨-, localpath, hopen⟩⟩ := h.entries p f hf htype
  · omega
  · obtain ⟨-, hclosed | ⟨-, localpath', hopen'⟩⟩ := h.entries q g hg htype'
    · omega
    · rw [heq, hopen'] at hopen
      exact (Descriptor.localCopy.inj (Option.some.inj hopen)).1.symm

/-- The descriptor of a file that is closed is that of its own copy, and then in no entry. -/
theorem CopiesAgree.closeFile (h : v.CopiesAgree) {f : MountFile}
    (hf : (v.fileStat w file).1 = .ok f) (htype : f.info.fileType = 102) :
    (f.localFd = -1 ∨ 0 ≤ f.localFd ∧ ∃ localpath,
      v.descriptors f.localFd = some (.localCopy (normalizePath file) localpath)) ∧
    CopiesAgree { (v.fileStat w file).2.write file { f with localFd := -1 } with
      descriptors := Function.update v.descriptors f.localFd none } := by
  have hlook := h.fileStat w file
  have hfind := (findStr_of_fileStat h.wellFormed hf).2
  have hmem : (⟨normalizePath file, some f⟩ : StatCacheEntry MountData) ∈
      (v.fileStat w file).2.cache := List.mem_of_find?_eq_some hfind
  have hwrite : ((v.fileStat w file).2.write file { f with localFd := -1 }).CopiesAgree :=
    ⟨wellFormed_write hlook.wellFormed _ _,
      hlook.entries.write (fun _ _ _ hP => hP) fun _ =>
        ⟨(findStr_of_fileStat h.wellFormed hf).1, .inl rfl⟩, h.nonneg⟩
  refine ⟨(hlook.entries _ f hmem htype).2, hwrite.closeFd fun filename g hg htype' hpos heq => ?_⟩
  rcases mem_write hg with ⟨hold, hne⟩ | hentry
  · exact hne (hlook.eq_of_fd hold hmem htype' htype hpos heq)
  · obtain rfl := Option.some.inj (StatCacheEntry.mk.inj hentry).2
    exact absurd hpos (show ¬ (0 : ℤ) ≤ -1 by decide)

/-- **Every call keeps the invariant.** -/
theorem CopiesAgree.change (h : v.CopiesAgree) {call : VolumeCall}
    (hcall : v.FromKernel (w, call)) (hchange : Change w v call v') : v'.CopiesAgree := by
  have hlook := h.fileStat w
  cases hchange with
  | look call => exact hlook _
  | @update call f fi headers hupdates hf htype hsize hheaders =>
      have hfind := (findStr_of_fileStat h.wellFormed hf).2
      have hwrite := (hlook call.file).write (g := { f with info := fi }) hfind
        fun htype' => ⟨htype.symm.trans htype', rfl⟩
      exact hwrite.copyObject w headers
  | @createLink linkname path headers hheaders =>
      refine ⟨(Change.createLink hheaders).wellFormed h.wellFormed, ?_, ?_⟩
      · simp only [request_descriptors]
        refine Entries.insert (h.entries.delete fun _ _ _ hP => hP) fun f hf htype => ?_
        obtain rfl := Option.some.inj hf
        cases htype
      · simp only [request_descriptors]
        exact h.nonneg
  | @mkdir dirname mode headers hheaders =>
      refine ⟨(Change.mkdir hheaders).wellFormed h.wellFormed, ?_, ?_⟩
      · simp only [request_descriptors]
        refine (h.entries.search h.wellFormed.distinct).update _ _ (fun _ _ _ hP => hP)
          fun _ f _ hf htype => ?_
        obtain rfl := Option.some.inj hf
        cases htype
      · simp only [request_descriptors]
        exact h.nonneg
  | unlink => exact h.deleteFile _ _
  | rmdirSecret => exact (hlook _).deleteFile _ _
  | rmdir => exact ((hlook _).deleteFile _ _).deleteFile _ _
  | @readLink link f hf htype hsize hget =>
      exact (hlook link).write (findStr_of_fileStat h.wellFormed hf).2 fun htype' => ⟨htype', rfl⟩
  | @openFails path f hf htype hclosed hopened =>
      refine ⟨wellFormed_write (hlook path).wellFormed _ _, ?_, h.nonneg⟩
      exact (hlook path).entries.write (fun _ _ _ hP => hP) fun _ =>
        ⟨(findStr_of_fileStat h.wellFormed hf).1, .inl (hcall.failed hopened)⟩
  | @openCopy path localname f hf htype hclosed hopened hname =>
      have hnormal : normalizePath path = path := hcall.normal path (List.mem_singleton_self path)
      have hopen := (hlook path).openFd hopened (hcall.unused hopened)
        (.localCopy path (ascii "/files/" ++ localname))
      refine ⟨wellFormed_write hopen.wellFormed path { f with localFd := w.opened }, ?_,
        hopen.nonneg⟩
      refine hopen.entries.write (fun _ _ _ hP => hP) fun _ =>
        ⟨(findStr_of_fileStat h.wellFormed hf).1, .inr ⟨hopened, ?_⟩⟩
      exact ⟨_, (Function.update_self _ _ _).trans (by rw [hnormal])⟩
  | @fileClose path f hf => exact (h.closeFile hf (hcall.regular path f rfl hf)).2
  | openOther hfd hnone => exact h.openFd hfd hnone _
  | @closeOther fd hother =>
      refine h.closeFd fun filename f hmem htype hpos heq => ?_
      obtain ⟨-, hclosed | ⟨-, localpath, hopen⟩⟩ := h.entries filename f hmem htype
      · omega
      · rw [heq, hother] at hopen
        cases hopen

/-- The invariant holds after every run. -/
theorem copiesAgree_of_run {start : Volume} {calls : List (VolumeWorld × VolumeCall)}
    (hempty : start.cache = []) (hnonneg : ∀ fd, start.descriptors fd ≠ none → 0 ≤ fd)
    (halong : Along step (fun v a _ => v.FromKernel a) start calls)
    (hrun : run step start calls = some v) : v.CopiesAgree := by
  refine run_inv (fun v a v' h hcall hstep => h.change hcall (change_of_step hstep)) ?_ halong hrun
  refine ⟨?_, ?_, hnonneg⟩
  · rw [hempty]
    exact wellFormed_nil _
  · intro filename f hmem
    rw [hempty] at hmem
    cases hmem

/-- **What a call does to an open descriptor**: only the close of a file closes a copy, the one in
the entry of the file, and nothing else of the program is closed. -/
theorem CopiesAgree.descriptors_change (h : v.CopiesAgree) {call : VolumeCall}
    (hcall : v.FromKernel (w, call)) (hchange : Change w v call v') {fd : ℤ} {d : Descriptor}
    (hfd : v.descriptors fd = some d) :
    v'.descriptors fd = some d ∨ v'.descriptors fd = none ∧
      (call = .closeOther fd ∧ d = .other ∨
        ∃ path localpath f, call = .fileClose path ∧ d = .localCopy path localpath ∧
          (v.fileStat w path).1 = .ok f ∧ f.info.fileType = 102 ∧ f.localFd = fd) := by
  have hopened : ∀ fd' d', v.descriptors fd' = none →
      Function.update v.descriptors fd' (some d') fd = some d := by
    intro fd' d' hnone
    rw [Function.update_of_ne, hfd]
    rintro rfl
    rw [hnone] at hfd
    cases hfd
  cases hchange with
  | look call => exact .inl hfd
  | update hupdates hf htype hsize hheaders =>
      rw [copyObject_descriptors]
      exact .inl hfd
  | createLink hheaders => exact .inl ((congrFun (request_descriptors v _ _ _) fd).trans hfd)
  | mkdir hheaders => exact .inl ((congrFun (request_descriptors v _ _ _) fd).trans hfd)
  | unlink =>
      rw [deleteFile_descriptors]
      exact .inl hfd
  | rmdirSecret =>
      rw [deleteFile_descriptors]
      exact .inl hfd
  | rmdir =>
      rw [deleteFile_descriptors, deleteFile_descriptors]
      exact .inl hfd
  | readLink hf htype hsize hget => exact .inl hfd
  | openFails hf htype hclosed hopened => exact .inl hfd
  | openCopy hf htype hclosed hpos hname => exact .inl (hopened _ _ (hcall.unused hpos))
  | @fileClose path f hf =>
      have hnormal : normalizePath path = path := hcall.normal path (List.mem_singleton_self path)
      have htype := hcall.regular path f rfl hf
      by_cases heq : fd = f.localFd
      · subst heq
        rcases (h.closeFile hf htype).1 with hclosed | ⟨-, localpath, hopen⟩
        · exact absurd (h.nonneg f.localFd (by simp [hfd])) (by omega)
        · rw [hnormal, hfd] at hopen
          exact .inr ⟨Function.update_self _ _ _,
            .inr ⟨path, localpath, f, rfl, Option.some.inj hopen, hf, htype, rfl⟩⟩
      · exact .inl ((Function.update_of_ne heq _ _).trans hfd)
  | openOther hpos hnone => exact .inl (hopened _ _ hnone)
  | @closeOther fd' hother =>
      by_cases heq : fd = fd'
      · subst heq
        exact .inr ⟨Function.update_self _ _ _,
          .inl ⟨rfl, Option.some.inj (hfd.symm.trans hother)⟩⟩
      · exact .inl ((Function.update_of_ne heq _ _).trans hfd)

end Invariant

/-! ### Descriptors that are lost -/

section Lost

variable {start v v' v₁ v₂ : Volume} {w : VolumeWorld} {path localpath : Bytes} {fd : ℤ}
  {calls : List (VolumeWorld × VolumeCall)}

/-- The entry of a regular file has a descriptor. -/
def Holds (v : Volume) (path : Bytes) (fd : ℤ) : Prop :=
  ∃ f, v.cache.findStr path = some ⟨path, some f⟩ ∧ f.info.fileType = 102 ∧ f.localFd = fd

/-- A copy is open, and its descriptor is not in the entry of the file. -/
structure Leaked (v : Volume) (path localpath : Bytes) (fd : ℤ) : Prop where
  isOpen : v.descriptors fd = some (.localCopy path localpath)
  entries : Entries (fun filename f => filename = path → f.info.fileType = 102 → f.localFd ≠ fd)
    v.cache

theorem leaked_of_not_holds (hw : WellFormed maxStatCacheSize v.cache)
    (hopen : v.descriptors fd = some (.localCopy path localpath)) (h : ¬ v.Holds path fd) :
    v.Leaked path localpath fd := by
  refine ⟨hopen, fun filename f hmem hname htype heq => h ⟨f, ?_, htype, heq⟩⟩
  subst hname
  exact (findStr_eq_some_iff hw.distinct).2 ⟨hmem, rfl⟩

/-- **A descriptor that is lost stays open** and is not found again. -/
theorem Leaked.change (hleaked : v.Leaked path localpath fd) (h : v.CopiesAgree)
    {call : VolumeCall} (hcall : v.FromKernel (w, call)) (hchange : Change w v call v') :
    v'.Leaked path localpath fd := by
  have hpos : 0 ≤ fd := h.nonneg fd (by simp [hleaked.isOpen])
  have hlook : ∀ file, Entries (fun filename f => filename = path → f.info.fileType = 102 →
      f.localFd ≠ fd) (v.fileStat w file).2.cache := fun file =>
    hleaked.entries.fileStat h.wellFormed fun _ _ _ _ _ => show (-1 : ℤ) ≠ fd by omega
  -- whatever the call does, it does not put the descriptor into the entry
  have hentries : Entries (fun filename f => filename = path → f.info.fileType = 102 →
      f.localFd ≠ fd) v'.cache := by
    cases hchange with
    | look call => exact hlook _
    | @update call f fi headers hupdates hf htype hsize hheaders =>
        have hold := (hlook call.file).of_findStr (findStr_of_fileStat h.wellFormed hf).2
        rw [copyObject_cache]
        exact (hlook call.file).write (fun _ _ _ hP => hP)
          fun hname htype' => hold hname (htype.symm.trans htype')
    | @createLink linkname target headers hheaders =>
        refine Entries.insert (hleaked.entries.delete fun _ _ _ hP => hP) fun f hf _ htype => ?_
        obtain rfl := Option.some.inj hf
        cases htype
    | @mkdir dirname mode headers hheaders =>
        refine (hleaked.entries.search h.wellFormed.distinct).update (cleanPath dirname)
          (fun _ => some ⟨directoryInfo w.toUpdateWorld mode, none, 0⟩) (fun _ _ _ hP => hP)
          fun _ f _ hf _ htype => ?_
        obtain rfl := Option.some.inj hf
        cases htype
    | unlink =>
        rw [deleteFile_cache]
        exact hleaked.entries.delete fun _ _ _ hP => hP
    | rmdirSecret =>
        rw [deleteFile_cache]
        exact (hlook _).delete fun _ _ _ hP => hP
    | rmdir =>
        rw [deleteFile_cache, deleteFile_cache]
        exact Entries.delete ((hlook _).delete fun _ _ _ hP => hP) fun _ _ _ hP => hP
    | @readLink link f hf htype hsize hget =>
        have hold := (hlook link).of_findStr (findStr_of_fileStat h.wellFormed hf).2
        exact (hlook link).write (fun _ _ _ hP => hP) hold
    | @openFails file f hf htype hclosed hopened =>
        exact (hlook file).write (fun _ _ _ hP => hP) fun _ _ => show w.opened ≠ fd by omega
    | @openCopy file localname f hf htype hclosed hopened hname =>
        refine (hlook file).write (fun _ _ _ hP => hP) fun _ _ => ?_
        rintro rfl
        have hunused := hcall.unused hopened
        rw [show v.descriptors w.opened = _ from hleaked.isOpen] at hunused
        cases hunused
    | @fileClose file f hf =>
        exact (hlook file).write (fun _ _ _ hP => hP) fun _ _ => show (-1 : ℤ) ≠ fd by omega
    | openOther hpos hnone => exact hleaked.entries
    | closeOther hother => exact hleaked.entries
  refine ⟨?_, hentries⟩
  rcases h.descriptors_change hcall hchange hleaked.isOpen with
    hkept | ⟨-, ⟨-, hother⟩ | ⟨file, localpath', f, rfl, hcopy, hf, htype, heq⟩⟩
  · exact hkept
  · cases hother
  · obtain ⟨rfl, -⟩ := Descriptor.localCopy.inj hcopy
    have hnormal : normalizePath path = path := hcall.normal path (List.mem_singleton_self path)
    exact absurd heq ((hlook path).of_findStr (findStr_of_fileStat h.wellFormed hf).2 hnormal htype)

theorem leaked_of_run (h : v₁.CopiesAgree) (hleaked : v₁.Leaked path localpath fd)
    (halong : Along step (fun v a _ => v.FromKernel a) v₁ calls)
    (hrun : run step v₁ calls = some v₂) : v₂.CopiesAgree ∧ v₂.Leaked path localpath fd := by
  have hkeeps : ∀ (v : Volume) (a : VolumeWorld × VolumeCall) (v' : Volume),
      v.CopiesAgree ∧ v.Leaked path localpath fd → v.FromKernel a → step v a = some v' →
      v'.CopiesAgree ∧ v'.Leaked path localpath fd := by
    rintro v a v' ⟨h, hleaked⟩ hcall hstep
    have hchange : Change a.1 v a.2 v' := change_of_step hstep
    exact ⟨h.change hcall hchange, hleaked.change h hcall hchange⟩
  exact run_inv hkeeps ⟨h, hleaked⟩ halong hrun

/-- **A read or a close of a file never touches the descriptor of anything else**: in every state
that is reached, what `S3ReadFile` reads from is open on the local copy of its file, and a call that
closes the descriptor of a copy is the close of the file of this copy. -/
theorem copies_kept_apart (hempty : start.cache = [])
    (hnonneg : ∀ fd, start.descriptors fd ≠ none → 0 ≤ fd)
    (halong : Along step (fun v a _ => v.FromKernel a) start calls)
    (hrun : run step start calls = some v) :
    (∀ w path fd v', v.FromKernel (w, .readFile path) →
      v.s3ReadFile w path = some ((0, some fd), v') → 0 ≤ fd →
        ∃ localpath, v'.descriptors fd = some (.localCopy path localpath)) ∧
    ∀ w call v' fd d, v.FromKernel (w, call) → v.step (w, call) = some v' →
      v.descriptors fd = some d → v'.descriptors fd = some d ∨ v'.descriptors fd = none ∧
        (call = .closeOther fd ∧ d = .other ∨
          ∃ path localpath, call = .fileClose path ∧ d = .localCopy path localpath) := by
  have h := copiesAgree_of_run hempty hnonneg halong hrun
  constructor
  · intro w path fd v' hcall hread hpos
    have hnormal : normalizePath path = path := hcall.normal path (List.mem_singleton_self path)
    rw [s3ReadFile] at hread
    split at hread
    · cases hread
    · rename_i f v₁ hstat
      obtain rfl : (v.fileStat w path).2 = v₁ := congrArg Prod.snd hstat
      have hfind := (findStr_of_fileStat h.wellFormed (congrArg Prod.fst hstat)).2
      split at hread
      · cases hread
      · rename_i htype
        split at hread
        · rename_i hdownload
          exact absurd (Prod.mk.inj (Prod.mk.inj (Option.some.inj hread)).1).1 hdownload
        · split at hread
          · rename_i hopen
            obtain ⟨hresult, rfl⟩ := Prod.mk.inj (Option.some.inj hread)
            obtain rfl := Option.some.inj (Prod.mk.inj hresult).2
            obtain ⟨-, hclosed | ⟨-, localpath, hcopy⟩⟩ :=
              (h.fileStat w path).entries.of_findStr hfind (not_not.1 htype)
            · omega
            · exact ⟨localpath, hnormal ▸ hcopy⟩
          · obtain ⟨localname, hname, hread⟩ := Option.bind_eq_some_iff.1 hread
            obtain ⟨hresult, rfl⟩ := Prod.mk.inj (Option.some.inj hread)
            obtain rfl := Option.some.inj (Prod.mk.inj hresult).2
            rw [if_neg (by omega)]
            exact ⟨_, Function.update_self _ _ _⟩
  · intro w call v' fd d hcall hstep hfd
    rcases h.descriptors_change hcall (change_of_step hstep) hfd with
      hkept | ⟨hnone, hother | ⟨path, localpath, f, hclose, hcopy, -⟩⟩
    · exact .inl hkept
    · exact .inr ⟨hnone, .inl hother⟩
    · exact .inr ⟨hnone, .inr ⟨path, localpath, hclose, hcopy⟩⟩

/-- A copy stays open as long as its file is not closed. -/
theorem open_of_run (h : v₁.CopiesAgree)
    (hopen : v₁.descriptors fd = some (.localCopy path localpath))
    (halong : Along step (fun v a _ => v.FromKernel a ∧ a.2 ≠ .fileClose path) v₁ calls)
    (hrun : run step v₁ calls = some v₂) :
    v₂.CopiesAgree ∧ v₂.descriptors fd = some (.localCopy path localpath) := by
  have hkeeps : ∀ (v : Volume) (a : VolumeWorld × VolumeCall) (v' : Volume),
      v.CopiesAgree ∧ v.descriptors fd = some (.localCopy path localpath) →
      v.FromKernel a ∧ a.2 ≠ .fileClose path → step v a = some v' →
      v'.CopiesAgree ∧ v'.descriptors fd = some (.localCopy path localpath) := by
    rintro v a v' ⟨h, hopen⟩ ⟨hcall, hne⟩ hstep
    have hchange : Change a.1 v a.2 v' := change_of_step hstep
    refine ⟨h.change hcall hchange, ?_⟩
    rcases h.descriptors_change hcall hchange hopen with
      hkept | ⟨-, ⟨-, hother⟩ | ⟨file, localpath', f, hclose, hcopy, -⟩⟩
    · exact hkept
    · cases hother
    · obtain ⟨rfl, -⟩ := Descriptor.localCopy.inj hcopy
      exact absurd hclose hne
  exact run_inv hkeeps ⟨h, hopen⟩ halong hrun

/-- **When the descriptor of a copy is closed**: the close of a file closes a copy that was opened
before exactly if the entry of the file with the descriptor has been in the cache in every state in
between. -/
theorem copy_closed_iff {before : List (VolumeWorld × VolumeCall)} (hempty : start.cache = [])
    (hnonneg : ∀ fd, start.descriptors fd ≠ none → 0 ≤ fd)
    (halong : Along step (fun v a _ => v.FromKernel a) start before)
    (hrun : run step start before = some v₁)
    (hopen : v₁.descriptors fd = some (.localCopy path localpath))
    (halong' : Along step (fun v a _ => v.FromKernel a ∧ a.2 ≠ .fileClose path) v₁ calls)
    (hrun' : run step v₁ calls = some v₂) (hcall : v₂.FromKernel (w, .fileClose path)) :
    (v₂.s3FileClose w path).2.descriptors fd = none ↔
      ∀ done, done <+: calls → ∀ t, run step v₁ done = some t → t.Holds path fd := by
  have h := copiesAgree_of_run hempty hnonneg halong hrun
  have hnormal : normalizePath path = path := hcall.normal path (List.mem_singleton_self path)
  constructor
  · rintro hclosed done ⟨rest, rfl⟩ t ht
    by_contra hnot
    obtain ⟨hfirst, hrest⟩ := along_append.1 halong'
    obtain ⟨t', ht', hrun'⟩ := run_append.1 hrun'
    obtain rfl := Option.some.inj (ht.symm.trans ht')
    obtain ⟨hagree, hopen'⟩ := open_of_run h hopen hfirst ht
    have hlost := leaked_of_not_holds hagree.wellFormed hopen' hnot
    have hkernel : Along step (fun v a _ => v.FromKernel a) t rest :=
      along_of_inv (fun _ _ _ _ hC _ => ⟨trivial, hC.1⟩) trivial (hrest t ht)
    obtain ⟨hagree', hlost'⟩ := leaked_of_run hagree hlost hkernel hrun'
    have hstill := (hlost'.change hagree' hcall change_fileClose).isOpen
    rw [hclosed] at hstill
    cases hstill
  · intro hheld
    obtain ⟨hagree, -⟩ := open_of_run h hopen halong' hrun'
    obtain ⟨f, hfind, htype, rfl⟩ := hheld calls (List.prefix_refl calls) v₂ hrun'
    have hsecret := (hagree.entries.of_findStr hfind htype).1
    have hstat : v₂.fileStat w path = (.ok f, (v₂.fileStat w path).2) := by
      refine Prod.ext ?_ rfl
      simp only [fileStat, mountFileStat, hnormal, if_neg hsecret, hfind]
    rw [s3FileClose, hstat]
    exact Function.update_self _ _ _

/-- What a call meets when every file is there, and `open` gives a descriptor. -/
def fileBucket (opened : ℤ) : VolumeWorld where
  ctx := june (.fixed 0 abs_zero_lt_int)
  garbage := []
  head := fun _ => ⟨some 200, []⟩
  now := 1340100246
  put := some 200
  done := true
  deleted := ⟨some 204, true⟩
  get := fun _ _ => (some 404, [])
  empty := true
  unsetFd := 0
  response := 0
  download := 0
  localFilename := some (ascii "aaaaaa/bbbbbb")
  opened := opened

/-- A path of a file. -/
def copiedPath : Bytes := ascii "/f"

/-- The file is read. -/
def readCopied : VolumeWorld × VolumeCall := (fileBucket 3, .readFile copiedPath)

theorem fromKernel_fileBucket {call : VolumeCall} {opened : ℤ}
    (hnormal : ∀ path ∈ call.paths, normalizePath path = path)
    (hregular : ∀ path f, call = .fileClose path →
      (v.fileStat (fileBucket opened) path).1 = .ok f → f.info.fileType = 102)
    (hopened : opened = -1 ∨ 0 ≤ opened ∧ v.descriptors opened = none) :
    v.FromKernel (fileBucket opened, call) where
  normal := hnormal
  regular := hregular
  unused hpos := hopened.elim (fun h => absurd (h ▸ hpos) (show ¬ (0 : ℤ) ≤ -1 by decide)) (·.2)
  failed hneg := hopened.elim id fun h => absurd h.1 (not_le.2 hneg)

theorem along_readCopied :
    Along step (fun v a _ => v.FromKernel a) emptyVolume [readCopied] :=
  fun _ _ => ⟨fromKernel_fileBucket (by decide +kernel) (fun _ _ h => by cases h)
    (.inr ⟨by decide, rfl⟩), trivial⟩

theorem copies_kept_apart_readCopied :
    ∃ v, run step emptyVolume [readCopied] = some v ∧
      v.descriptors 3 = some (.localCopy copiedPath (ascii "/files/aaaaaa/bbbbbb")) ∧
      ∀ w call v' fd d, v.FromKernel (w, call) → v.step (w, call) = some v' →
        v.descriptors fd = some d → v'.descriptors fd = some d ∨ v'.descriptors fd = none ∧
          (call = .closeOther fd ∧ d = .other ∨
            ∃ path localpath, call = .fileClose path ∧ d = .localCopy path localpath) := by
  have hopen : (run step emptyVolume [readCopied]).map (·.descriptors 3) =
      some (some (.localCopy copiedPath (ascii "/files/aaaaaa/bbbbbb"))) := by decide +kernel
  obtain ⟨v, hv, hopen⟩ := Option.map_eq_some_iff.1 hopen
  exact ⟨v, hv, hopen,
    (copies_kept_apart rfl (fun _ h => absurd rfl h) along_readCopied hv).2⟩

theorem copy_closed_iff_readCopied :
    ∃ v₁, run step emptyVolume [readCopied] = some v₁ ∧
      (((v₁.fileStat (fileBucket (-1)) copiedPath).2.s3FileClose (fileBucket (-1))
          copiedPath).2.descriptors 3 = none ↔
        ∀ done, done <+: [(fileBucket (-1), .fileStat copiedPath)] →
          ∀ t, run step v₁ done = some t → t.Holds copiedPath 3) := by
  have hopen : (run step emptyVolume [readCopied]).map (·.descriptors 3) =
      some (some (.localCopy copiedPath (ascii "/files/aaaaaa/bbbbbb"))) := by decide +kernel
  obtain ⟨v₁, hv₁, hopen⟩ := Option.map_eq_some_iff.1 hopen
  have htype : (run step emptyVolume [readCopied]).map (fun v =>
      ((v.fileStat (fileBucket (-1)) copiedPath).2.fileStat (fileBucket (-1))
        copiedPath).1.toOption.map (·.info.fileType)) = some (some 102) := by decide +kernel
  rw [hv₁] at htype
  have hregular : ∀ f, ((v₁.fileStat (fileBucket (-1)) copiedPath).2.fileStat (fileBucket (-1))
      copiedPath).1 = .ok f → f.info.fileType = 102 := by
    intro f hf
    rw [Option.map_some, hf] at htype
    exact Option.some.inj (Option.some.inj htype)
  have hnormal : ∀ path ∈ [copiedPath], normalizePath path = path := by decide +kernel
  refine ⟨v₁, hv₁, copy_closed_iff rfl (fun _ h => absurd rfl h) along_readCopied hv₁ hopen
    (fun _ _ => ⟨⟨fromKernel_fileBucket hnormal (fun _ _ h => by cases h) (.inl rfl),
      fun h => by cases h⟩, trivial⟩) rfl
    (fromKernel_fileBucket hnormal (fun path f h hf => ?_) (.inl rfl))⟩
  obtain rfl := VolumeCall.fileClose.inj h
  exact hregular f hf

end Lost

end Volume

end AwsS3fs
