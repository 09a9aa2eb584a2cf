/-
**Symbolic links are objects.**

The target of a symbolic link is the content of an object, and the content type of the object says
that it is a link.  `S3ReadLink` (`s3if.c`) asks for as much of the content as the cache takes for
its size, and keeps what it gets in the entry, which is the first piece if `curl` delivers the
content in several ones; `S3CreateLink` puts an object and an entry at once.  The entry may expire
and be looked up again, the object may be copied to itself with other headers, and directories come
and go beside it.

Main definitions:

* `AwsS3fs.IsLink`, `AwsS3fs.HeadOf`, `AwsS3fs.Truthful` — links among the objects, and answers of
  S3 that agree with them;
* `AwsS3fs.Volume.LinksAgree` — **the invariant**: what the cache has of a link is so;
* `AwsS3fs.Volume.s3fsReadlink` — the function of `fuseif.c`.

Main results:

* `AwsS3fs.Volume.LinksAgree.change` — every call keeps the invariant;
* `AwsS3fs.Volume.readLink_eq_content` — **what is reported of a link is the content of its
  object**;
* `AwsS3fs.Volume.readlink_symlink` — **a link that is created is read back**, as long as nothing
  else is done to it.
-/

import AwsS3fs.HeaderOrder
import AwsS3fs.Volumes

set_option relaxedAutoImplicit false
set_option autoImplicit false

namespace AwsS3fs

open CLib StatCache Runs

/-! ### Links and answers -/

/-- An object with the content type of a symbolic link. -/
def IsLink (o : StoredObject) : Prop :=
  ∃ value, (ascii "Content-Type", value) ∈ o.headers ∧
    value.take 21 = ascii "application/x-symlink"

/-- The headers that come back for an object: those that it was put with, the size of its content,
and others that say nothing about the file. -/
structure HeadOf (ctx : StatContext) (o : StoredObject) (response : List (Bytes × Bytes)) : Prop
    where
  returned : Returned ctx o.headers response
  length : (ascii "Content-Length", formatInt o.body.length) ∈ response
  lengths : ∀ h ∈ response, h.1 = ascii "Content-Length" → h.2 = formatInt o.body.length
  small : o.body.length < 2 ^ 63

/-- What comes back for a range of the size of a file: an empty range is not one. -/
def served (o : StoredObject) (size : ℤ) : Bytes :=
  if 1 ≤ size then o.body.take size.toNat else o.body

/-- **Requests that succeed are answered according to the objects**, and `curl` delivers the content
of a link in one piece. -/
structure Truthful (objects : Bytes → Option StoredObject) (w : VolumeWorld) : Prop where
  head : ∀ name, submitStatus (w.head name).httpStatus = 0 →
    ∃ o, objects name = some o ∧ HeadOf w.ctx o (w.head name).headers
  get : ∀ size name, submitStatus (w.get (rangeHeader size) name).1 = 0 →
    ∃ o, objects name = some o ∧ deliveredBody (w.get (rangeHeader size) name).2 = served o size ∧
      (w.get (rangeHeader size) name).2.length ≤ 1 ∧
      ∀ call ∈ (w.get (rangeHeader size) name).2, call.piece.length ≤ curlMaxWriteSize

section Heads

variable {ctx : StatContext} {o : StoredObject} {response : List (Bytes × Bytes)}
  {filename : Bytes} {info : S3FileInfo} {objects : Bytes → Option StoredObject} {w : VolumeWorld}

/-- Only a header that was put with the object makes it a link. -/
theorem isLink_of_s3GetFileStat (hreturned : Returned ctx o.headers response)
    (h : s3GetFileStat ctx filename response = .ok info) (htype : info.fileType = 108) :
    IsLink o := by
  obtain ⟨b, hb, rfl⟩ := s3GetFileStat_eq_ok_iff.1 h
  refine foldlM_inv (P := fun b : StatBuffer => b.info.fileType = 108 → IsLink o) ?_ ?_ hb htype
  · intro header hheader c c' hc hstep htype'
    rcases hreturned.others header hheader with ⟨hmem, -⟩ | hneutral
    · rcases decodeHeader_eq_ok hstep with rfl | ⟨hfield, hinfo⟩ | ⟨field, value, -, hne, hinfo, -⟩
      · exact hc htype'
      · rw [hinfo, StatBuffer.setType] at htype'
        split at htype'
        · cases htype'
        · split at htype'
          · rename_i hvalue
            refine ⟨header.2, ?_, hvalue⟩
            rw [← show header.1 = ascii "Content-Type" from headerField_eq_some_iff.1 hfield]
            exact hmem
          · exact hc htype'
      · have hframe : SameAttribute c.info c'.info .contentType :=
          hinfo ▸ setField_frame hne (.inr rfl) c.info value
        exact hc (hframe ▸ htype')
    · obtain ⟨b', hb', hsame⟩ := hneutral c
      obtain rfl := Except.ok.inj (hstep.symm.trans hb')
      exact hc (hsame.fileType ▸ htype')
  · intro hdefault
    simp only [defaultInfo] at hdefault
    split at hdefault <;> cases hdefault

/-- The size of a file is that of its object. -/
theorem size_of_s3GetFileStat (hhead : HeadOf ctx o response)
    (h : s3GetFileStat ctx filename response = .ok info) : info.size = o.body.length := by
  obtain ⟨b, hb, rfl⟩ := s3GetFileStat_eq_ok_iff.1 h
  have hsmall := hhead.small
  -- the headers with the size set it, and the others leave it alone
  have hset : ∀ header ∈ response, ∀ c c' : StatBuffer, c.decodeHeader ctx header = .ok c' →
      header.1 = ascii "Content-Length" → c'.info.size = o.body.length := by
    intro header hheader c c' hstep hkey
    have hfield : headerField header.1 = some .contentLength := headerField_eq_some_iff.2 hkey
    rw [decodeHeader_int hfield rfl, hhead.lengths header hheader hkey, StatBuffer.setInt,
      getHeaderInt_formatInt ctx (by omega) (by omega)] at hstep
    obtain rfl := Except.ok.inj hstep
    rfl
  obtain ⟨before, after, rfl⟩ := List.append_of_mem hhead.length
  obtain ⟨c, hc, hb⟩ := foldlM_append_eq_ok.1 hb
  rw [List.foldlM_cons, bind_eq_ok_iff] at hb
  obtain ⟨c', hc', hb⟩ := hb
  refine foldlM_inv (P := fun b : StatBuffer => b.info.size = o.body.length) ?_
    (hset _ (by simp) c c' hc' rfl) hb
  intro header hheader d d' hd hstep
  by_cases hkey : header.1 = ascii "Content-Length"
  · exact hset header (by simp [hheader]) d d' hstep hkey
  · have hframe : d'.info.size = d.info.size :=
      decodeHeader_frame (g := .contentLength) hstep hkey fun hmtime => by cases hmtime
    exact hframe.trans hd

/-- What a HEAD request finds. -/
theorem exists_of_headFileStat (hw : Truthful objects w)
    (h : headFileStat w.toStatWorld filename = .ok info) :
    ∃ o, objects filename = some o ∧ info.size = o.body.length ∧
      (info.fileType = 108 → IsLink o) := by
  obtain ⟨response, hresponse, hstat⟩ := bind_eq_ok_iff.1 h
  rw [submitHead] at hresponse
  split at hresponse
  · rename_i hstatus
    obtain rfl := Except.ok.inj hresponse
    obtain ⟨o, ho, hhead⟩ := hw.head filename hstatus
    exact ⟨o, ho, size_of_s3GetFileStat hhead hstat,
      isLink_of_s3GetFileStat hhead.returned hstat⟩
  · cases hresponse

/-- A response in one piece is read as it is. -/
theorem responseString_of_length_le_one {calls : List WriteCall} (hone : calls.length ≤ 1)
    (hmax : ∀ call ∈ calls, call.piece.length ≤ curlMaxWriteSize) :
    responseString calls = stringIn (deliveredBody calls) := by
  cases calls with
  | nil => rfl
  | cons call calls =>
      obtain rfl : calls = [] := List.length_eq_zero_iff.1 (by rw [List.length_cons] at hone; omega)
      have hpiece := hmax call List.mem_cons_self
      have hbody : deliveredBody [call] = call.piece := List.flatMap_singleton ..
      have hlt : (deliveredBody [call]).length + [call].length < 2 ^ 31 := by
        rw [curlMaxWriteSize] at hpiece
        rw [hbody, List.length_singleton]
        omega
      rw [responseString_eq hmax hlt, hbody]
      rfl

/-- A GET request for as much as a file has brings all of it. -/
theorem Truthful.get_eq_body (hw : Truthful objects w) {size : ℤ}
    (ho : objects filename = some o) (hsize : size = o.body.length)
    (hget : submitStatus (w.get (rangeHeader size) filename).1 = 0) :
    responseString (w.get (rangeHeader size) filename).2 = stringIn o.body := by
  obtain ⟨o', ho', hserved, hone, hmax⟩ := hw.get size filename hget
  obtain rfl := Option.some.inj (ho.symm.trans ho')
  rw [responseString_of_length_le_one hone hmax, hserved, served]
  split
  · rw [List.take_of_length_le (by omega)]
  · rfl

/-- A path with a slash behind it, or with the name of the secret file, is not reported. -/
theorem not_reported_append {filename : Bytes} :
    ¬ Reported (filename ++ isS3DirectoryFile) ∧
      (filename ≠ [] → ¬ Reported (filename ++ [47])) := by
  refine ⟨fun h => h.2 (List.suffix_append _ _), fun hne h => ?_⟩
  have hroot : normalizePath (filename ++ [47]) ≠ [47] := by
    rw [h.1]
    intro heq
    exact hne (List.append_eq_singleton_iff.1 heq |>.elim (fun h => h.1) fun h => by simp at h)
  have hlast := getLast?_normalizePath hroot
  rw [h.1, List.getLast?_concat] at hlast
  exact hlast rfl

/-- **What a lookup takes for a link is one**, if there are links only where files can be. -/
theorem exists_of_missFileStat (hw : Truthful objects w)
    (hproper : ∀ name o, objects name = some o → IsLink o → Reported name)
    (hname : normalizePath filename = filename) (hroot : filename ≠ [47])
    (h : missFileStat w.toStatWorld filename = .ok info) (htype : info.fileType = 108) :
    ∃ o, objects filename = some o ∧ IsLink o ∧ info.size = o.body.length := by
  have hne : filename ≠ [] := by
    intro hnil
    rw [hnil] at hname
    cases hname
  have hslash : addTrailingSlash w.garbage (normalizePath filename) =
      normalizePath filename ++ [47] :=
    addTrailingSlash_normalizePath (hname.symm ▸ hroot) w.garbage
  rw [hname] at hslash
  rw [missFileStat, lookupFileStat] at h
  split at h
  · rename_i info' hfound
    obtain rfl := Except.ok.inj h
    obtain ⟨o, ho, hsize, hlink⟩ := exists_of_headFileStat hw hfound
    exact ⟨o, ho, hlink htype, hsize⟩
  · split at h
    · rename_i info' hfound
      obtain rfl := Except.ok.inj h
      rw [hslash] at hfound
      obtain ⟨o, ho, -, hlink⟩ := exists_of_headFileStat hw hfound
      exact absurd (hproper _ o ho (hlink htype)) (not_reported_append.2 hne)
    · obtain ⟨o, ho, -, hlink⟩ := exists_of_headFileStat hw h
      exact absurd (hproper _ o ho (hlink htype)) not_reported_append.1

end Heads

/-- The content type that is written for a file. -/
theorem isLink_headers_iff {zone : Calendar.Zone} {fi : S3FileInfo} {headers : List (Bytes × Bytes)}
    (h : createHeadersFromFileInfo zone fi = some headers) (body : Bytes) :
    IsLink ⟨headers, body⟩ ↔ fi.fileType = 108 := by
  obtain ⟨mtm, rfl⟩ := createHeadersFromFileInfo_eq_some h
  constructor
  · rintro ⟨value, hmem, hvalue⟩
    have hkeys : ∀ key ∈ [ascii "x-amz-meta-atime", ascii "Last-Modified", ascii "x-amz-meta-uid",
        ascii "x-amz-meta-gid", ascii "x-amz-meta-mode", ascii "x-amz-meta-modex"],
        ascii "Content-Type" ≠ key := by decide +kernel
    simp only [List.forall_mem_cons, List.not_mem_nil, false_imp_iff, implies_true,
      and_true] at hkeys
    obtain ⟨hatime, hmtime, huid, hgid, hmode, hmodex⟩ := hkeys
    simp only [List.mem_append, List.mem_cons, List.not_mem_nil, Prod.mk.injEq, hatime, hmtime,
      huid, hgid, hmode, hmodex, false_and, or_false, false_or] at hmem
    rw [contentType] at hmem
    split at hmem
    · obtain rfl := (Prod.mk.inj (List.mem_singleton.1 hmem)).2
      exact absurd hvalue (by decide +kernel)
    · split at hmem
      · assumption
      · cases hmem
  · intro htype
    refine ⟨ascii "application/x-symlink", ?_, by decide +kernel⟩
    simp [htype, contentType]

theorem stringIn_eq_self {s : Bytes} (h : 0 ∉ s) : stringIn s = s :=
  List.takeWhile_eq_self_iff.2 fun _ hch => bne_iff_ne.2 fun heq => h (heq ▸ hch)

/-! ### The invariant -/

namespace Volume

/-- What the cache has of a link under a name: the size and the target. -/
def LinkAgrees (objects : Bytes → Option StoredObject) (filename : Bytes) (f : MountFile) : Prop :=
  f.info.fileType = 108 → filename ≠ [47] →
    ∃ o, objects filename = some o ∧ IsLink o ∧ f.info.size = o.body.length ∧
      ∀ target, f.symlinkTarget = some target → target = stringIn o.body

/-- **What the cache has of links agrees with the objects**, and there are links only where files
can be. -/
structure LinksAgree (v : Volume) : Prop where
  wellFormed : WellFormed maxStatCacheSize v.cache
  entries : Entries (LinkAgrees v.objects) v.cache
  proper : ∀ name o, v.objects name = some o → IsLink o → Reported name

/-- **A call as it comes from the kernel**, with answers that agree with the objects: its paths are
normal, and the request for a new link is carried out. -/
structure Ordinary (v : Volume) (a : VolumeWorld × VolumeCall) : Prop where
  truthful : Truthful v.objects a.1
  normal : ∀ path ∈ a.2.paths, normalizePath path = path
  created : ∀ linkname path, a.2 = .createLink linkname path →
    ¬ isS3DirectoryFile <:+ linkname ∧ a.1.written.takesEffect = true

section Invariant

variable {w : VolumeWorld} {v v' : Volume} {file : Bytes}

/-- A lookup finds links that are there. -/
theorem LinksAgree.fileStat (h : v.LinksAgree) (hw : Truthful v.objects w) (file : Bytes) :
    (v.fileStat w file).2.LinksAgree where
  wellFormed := wellFormed_fileStat h.wellFormed file
  entries := by
    refine h.entries.fileStat h.wellFormed fun info _ hmiss htype hroot => ?_
    obtain ⟨o, ho, hlink, hsize⟩ := exists_of_missFileStat hw h.proper
      (normalizePath_normalizePath file) hroot hmiss htype
    exact ⟨o, ho, hlink, hsize, fun target htarget => by cases htarget⟩
  proper := h.proper

/-- A write that leaves the information and the target alone. -/
theorem LinksAgree.write (h : v.LinksAgree) {f g : MountFile}
    (hfind : v.cache.findStr (normalizePath file) = some ⟨normalizePath file, some f⟩)
    (htype : g.info.fileType = f.info.fileType) (hsize : g.info.size = f.info.size)
    (htarget : g.symlinkTarget = f.symlinkTarget) : (v.write file g).LinksAgree where
  wellFormed := wellFormed_write h.wellFormed file g
  entries := by
    refine h.entries.write (fun _ _ _ hP => hP) fun htype' hroot => ?_
    obtain ⟨o, ho, hlink, hsize', htarget'⟩ :=
      h.entries.of_findStr hfind (htype ▸ htype') hroot
    exact ⟨o, ho, hlink, hsize.trans hsize', fun target heq => htarget' target (htarget ▸ heq)⟩
  proper := h.proper

/-- A DELETE request and the deletion of the entry. -/
theorem LinksAgree.deleteFile (h : v.LinksAgree) (answer : WriteAnswer) (name : Bytes) :
    (v.deleteFile answer name).2.LinksAgree where
  wellFormed := by
    rw [deleteFile_cache]
    exact h.wellFormed.deleteStatEntry name
  entries := by
    rw [deleteFile_cache]
    refine h.entries.delete fun filename f hne hP htype hroot => ?_
    rw [deleteFile_objects_of_ne v answer hne]
    exact hP htype hroot
  proper := by
    intro filename o ho
    by_cases hne : filename = name
    · subst hne
      rw [deleteFile_objects_self] at ho
      split at ho
      · cases ho
      · exact h.proper filename o ho
    · rw [deleteFile_objects_of_ne v answer hne] at ho
      exact h.proper filename o ho

/-- A copy of an object to itself, with the information in its entry. -/
theorem LinksAgree.copyObject (h : v.LinksAgree) {f : MountFile}
    {headers : List (Bytes × Bytes)} (hreported : Reported file)
    (hfind : v.cache.findStr file = some ⟨file, some f⟩)
    (hheaders : createHeadersFromFileInfo w.ctx.zone f.info = some headers) :
    (v.copyObject w file headers).LinksAgree where
  wellFormed := by
    rw [copyObject_cache]
    exact h.wellFormed
  entries := by
    rw [copyObject_cache]
    intro filename g hmem htype hroot
    obtain ⟨o, ho, hlink, hsize, htarget⟩ := h.entries filename g hmem htype hroot
    by_cases hne : filename = file
    · subst hne
      have hentry := (findStr_eq_some_iff h.wellFormed.distinct).2 ⟨hmem, rfl⟩
      obtain rfl : f = g := Option.some.inj
        (StatCacheEntry.mk.inj (Option.some.inj (hfind.symm.trans hentry))).2
      rw [copyObject_objects_self, ho]
      split
      · exact ⟨_, rfl, (isLink_headers_iff hheaders o.body).2 htype, hsize, htarget⟩
      · exact ⟨o, rfl, hlink, hsize, htarget⟩
    · rw [copyObject_objects_of_ne headers hne]
      exact ⟨o, ho, hlink, hsize, htarget⟩
  proper := by
    intro filename o ho hlink
    by_cases hne : filename = file
    · exact hne ▸ hreported
    · rw [copyObject_objects_of_ne headers hne] at ho
      exact h.proper filename o ho hlink

/-- A new link. -/
theorem LinksAgree.createLink (h : v.LinksAgree) {linkname : Bytes} {path : CString}
    {headers : List (Bytes × Bytes)} (hname : Reported linkname)
    (hdone : w.written.takesEffect = true)
    (hheaders : createHeadersFromFileInfo w.ctx.zone (linkInfo w.toUpdateWorld path.bytes) =
      some headers) :
    LinksAgree { v.request w.written linkname (some ⟨headers, path.bytes⟩) with
      cache := (v.cache.deleteStatEntry linkname).insertCacheElement maxStatCacheSize linkname
        (some ⟨linkInfo w.toUpdateWorld path.bytes, some path.bytes, w.unsetFd⟩) } where
  wellFormed := by
    refine (h.wellFormed.deleteStatEntry linkname).insert (by decide) (by decide) ?_ _
    exact (findStr_deleteStatEntry _ _ _).trans (if_pos rfl)
  entries := by
    have hold : Entries (LinkAgrees (v.request w.written linkname
        (some ⟨headers, path.bytes⟩)).objects) (v.cache.deleteStatEntry linkname) := by
      refine h.entries.delete fun filename f hne hP htype hroot => ?_
      rw [request_objects_of_ne v _ _ hne]
      exact hP htype hroot
    refine hold.insert fun f hf htype hroot => ?_
    obtain rfl := Option.some.inj hf
    refine ⟨⟨headers, path.bytes⟩, ?_, (isLink_headers_iff hheaders _).2 rfl, rfl, ?_⟩
    · rw [request_objects_self, if_pos hdone]
    · rintro target htarget
      obtain rfl := Option.some.inj htarget
      exact (stringIn_eq_self path.noNul).symm
  proper := by
    intro filename o ho hlink
    by_cases hne : filename = linkname
    · exact hne ▸ hname
    · have hobjects := request_objects_of_ne v w.written (some ⟨headers, path.bytes⟩) hne
      exact h.proper filename o (hobjects.symm.trans ho) hlink

/-- A new directory, in place of what the cache has under its name. -/
theorem LinksAgree.mkdir (h : v.LinksAgree) {name : Bytes} {mode : UInt32}
    {headers : List (Bytes × Bytes)}
    (hheaders : createHeadersFromFileInfo w.ctx.zone (directoryInfo w.toUpdateWorld mode) =
      some headers) :
    LinksAgree { v.request w.written (name ++ isS3DirectoryFile) (some ⟨headers, []⟩) with
      cache := (v.cache.searchStatEntry name).2.update name fun _ =>
        some ⟨directoryInfo w.toUpdateWorld mode, none, 0⟩ } where
  wellFormed := (h.wellFormed.search name).update name fun _ =>
    some ⟨directoryInfo w.toUpdateWorld mode, none, 0⟩
  entries := by
    have hsearch : Entries (LinkAgrees v.objects) (v.cache.searchStatEntry name).2 :=
      h.entries.search h.wellFormed.distinct
    refine hsearch.update name (fun _ => some ⟨directoryInfo w.toUpdateWorld mode, none, 0⟩)
      (fun filename f _ hP htype hroot => ?_) fun _ f _ hf => ?_
    · obtain ⟨o, ho, hlink, hrest⟩ := hP htype hroot
      have hne : filename ≠ name ++ isS3DirectoryFile := by
        rintro rfl
        exact not_reported_append.1 (h.proper _ o ho hlink)
      exact ⟨o, (request_objects_of_ne v _ _ hne).trans ho, hlink, hrest⟩
    · obtain rfl := Option.some.inj hf
      exact fun htype => by cases htype
  proper := by
    intro filename o ho hlink
    by_cases hne : filename = name ++ isS3DirectoryFile
    · subst hne
      have hself := request_objects_self v w.written (name ++ isS3DirectoryFile)
        (some ⟨headers, []⟩)
      rw [show _ = _ from ho] at hself
      split at hself
      · obtain rfl := Option.some.inj hself
        cases (isLink_headers_iff hheaders []).1 hlink
      · exact h.proper _ o hself.symm hlink
    · have hobjects := request_objects_of_ne v w.written (some ⟨headers, []⟩) hne
      exact h.proper filename o (hobjects.symm.trans ho) hlink

/-- **Every call keeps the invariant.** -/
theorem LinksAgree.change (h : v.LinksAgree) {call : VolumeCall} (hcall : v.Ordinary (w, call))
    (hchange : Change w v call v') : v'.LinksAgree := by
  have hlook := h.fileStat hcall.truthful
  cases hchange with
  | look call => exact hlook _
  | @update call f fi headers hupdates hf htype hsize hheaders =>
      have hnormal := hcall.normal call.file (VolumeCall.file_mem_paths hupdates)
      obtain ⟨hsecret, hfind⟩ := findStr_of_fileStat h.wellFormed hf
      have hwrite := (hlook call.file).write (g := { f with info := fi }) hfind htype hsize rfl
      have hwritten := findStr_write_self (g := { f with info := fi }) hfind
      rw [hnormal] at hsecret hwritten
      exact hwrite.copyObject ⟨hnormal, hsecret⟩ hwritten hheaders
  | createLink hheaders =>
      obtain ⟨hsecret, hdone⟩ := hcall.created _ _ rfl
      exact h.createLink ⟨hcall.normal _ (List.mem_singleton_self _), hsecret⟩ hdone hheaders
  | mkdir hheaders => exact h.mkdir hheaders
  | unlink => exact h.deleteFile _ _
  | rmdirSecret => exact (hlook _).deleteFile _ _
  | rmdir => exact ((hlook _).deleteFile _ _).deleteFile _ _
  | @readLink link f hf htype hsize hget =>
      have hnormal : normalizePath link = link := hcall.normal link (List.mem_singleton_self link)
      have hfind := (findStr_of_fileStat h.wellFormed hf).2
      refine ⟨wellFormed_write (hlook link).wellFormed _ _, ?_, (hlook link).proper⟩
      refine (hlook link).entries.write (fun _ _ _ hP => hP) fun _ hroot => ?_
      obtain ⟨o, ho, hlink, hsize', -⟩ := (hlook link).entries.of_findStr hfind htype hroot
      refine ⟨o, ho, hlink, hsize', fun target htarget => ?_⟩
      obtain rfl := Option.some.inj htarget
      rw [hnormal] at ho
      rw [hcall.truthful.get_eq_body ho hsize' hget]
  | openFails hf htype hclosed hopened =>
      exact (hlook _).write (findStr_of_fileStat h.wellFormed hf).2 rfl rfl rfl
  | @openCopy path localname f hf htype hclosed hopened hname =>
      have hwrite := (hlook path).write (g := { f with localFd := w.opened })
        (findStr_of_fileStat h.wellFormed hf).2 rfl rfl rfl
      exact ⟨hwrite.wellFormed, hwrite.entries, hwrite.proper⟩
  | @fileClose path f hf =>
      have hwrite := (hlook path).write (g := { f with localFd := -1 })
        (findStr_of_fileStat h.wellFormed hf).2 rfl rfl rfl
      exact ⟨hwrite.wellFormed, hwrite.entries, hwrite.proper⟩
  | openOther hfd hnone => exact ⟨h.wellFormed, h.entries, h.proper⟩
  | closeOther hother => exact ⟨h.wellFormed, h.entries, h.proper⟩

/-- The invariant holds after every run of ordinary calls. -/
theorem linksAgree_of_run {start : Volume} {calls : List (VolumeWorld × VolumeCall)}
    (hempty : start.cache = [])
    (hproper : ∀ name o, start.objects name = some o → IsLink o → Reported name)
    (halong : Along step (fun v a _ => v.Ordinary a) start calls)
    (hrun : run step start calls = some v) : v.LinksAgree := by
  refine run_inv (fun v a v' h hcall hstep => h.change hcall (change_of_step hstep)) ?_ halong hrun
  refine ⟨?_, ?_, hproper⟩
  · rw [hempty]
    exact wellFormed_nil _
  · intro filename f hmem
    rw [hempty] at hmem
    cases hmem

end Invariant

/-! ### What is reported of links -/

section Reports

variable {start v v' : Volume} {w : VolumeWorld} {link : Bytes}
  {calls : List (VolumeWorld × VolumeCall)}

/-- **What is reported of a link is the content of its object**, up to the first NUL, in every
state that is reached from an empty cache. -/
theorem readLink_eq_content (hempty : start.cache = [])
    (hproper : ∀ name o, start.objects name = some o → IsLink o → Reported name)
    (halong : Along step (fun v a _ => v.Ordinary a) start calls)
    (hrun : run step start calls = some v) (hcall : v.Ordinary (w, .readLink link))
    (hroot : link ≠ [47]) {target : Bytes} (h : (v.s3ReadLink w link).1 = (0, some target)) :
    ∃ o, v.objects link = some o ∧ IsLink o ∧ target = stringIn o.body := by
  have hagree := linksAgree_of_run hempty hproper halong hrun
  have hnormal : normalizePath link = link := hcall.normal link (List.mem_singleton_self link)
  have hlook := hagree.fileStat hcall.truthful link
  rw [s3ReadLink] at h
  split at h
  · cases h
  · rename_i f v₁ hstat
    obtain rfl : (v.fileStat w link).2 = v₁ := congrArg Prod.snd hstat
    have hfind := (findStr_of_fileStat hagree.wellFormed (congrArg Prod.fst hstat)).2
    rw [hnormal] at hfind
    split at h
    · cases h
    · rename_i htype
      obtain ⟨o, ho, hlink, hsize, htarget⟩ :=
        hlook.entries.of_findStr hfind (not_not.1 htype) hroot
      refine ⟨o, ho, hlink, ?_⟩
      split at h
      · rename_i target' hcached
        obtain rfl : target' = target := Option.some.inj (Prod.mk.inj h).2
        exact htarget target' hcached
      · split at h
        · simp only [] at h
          split at h
          · rename_i hget
            rw [hcall.truthful.get_eq_body ho hsize hget] at h
            exact (Option.some.inj (Prod.mk.inj h).2).symm
          · rename_i hget
            exact absurd (Prod.mk.inj h).1 hget
        · cases h

/-- `s3fs_readlink` with a buffer of a length: what it stores there. -/
def s3fsReadlink (w : VolumeWorld) (v : Volume) (linkname : Bytes) (length : ℕ) :
    (ℤ × Option Bytes) × Volume :=
  match v.s3ReadLink w linkname with
  | ((0, some target), v) =>
      ((0, some (if length < target.length + 1 then target.take (length - 1) else target)), v)
  | ((status, _), v) => ((status, none), v)

/-- Calls that do nothing to a file but look at it. -/
def LeavesAlone (name : Bytes) : VolumeCall → Prop
  | .chmod file _ | .chown file _ _ | .modifyTimeStamps file _ _ => file ≠ name
  | .createLink linkname _ => linkname ≠ name
  | .mkdir dirname _ | .unlink dirname => cleanPath dirname ≠ name
  | .rmdir dirname =>
      cleanPath dirname ≠ name ∧
        cleanPath (ListingState.secretFile (cleanPath dirname)) ≠ name
  | .fileStat _ | .readLink _ | .readFile _ | .fileClose _ | .openOther _ | .closeOther _ => True

/-- Requests for a file succeed, and the clocks are those of a time zone. -/
structure Reliable (zone : Calendar.Zone) (name : Bytes) (w : VolumeWorld) : Prop where
  zone : w.ctx.zone = zone
  head : submitStatus (w.head name).httpStatus = 0
  get : ∀ size, submitStatus (w.get (rangeHeader size) name).1 = 0

/-- The cache takes a file for a link if it knows the file. -/
def Known (name : Bytes) (cache : StatCache MountData) : Prop :=
  ∀ entry, cache.findStr name = some entry → ∃ f, entry.data = some f ∧ f.info.fileType = 108

/-- A link is there, with headers that can be read. -/
structure Linked (zone : Calendar.Zone) (name target : Bytes) (v : Volume) : Prop where
  agree : v.LinksAgree
  object : ∃ fi headers, createHeadersFromFileInfo zone fi = some headers ∧ fi.fileType = 108 ∧
    fi.permissions ≤ 511 ∧ 0 ≤ fi.atime ∧
    (Calendar.Time.ofSeconds (zone.clock fi.atime)).date.year ≤ 9999 ∧
    v.objects name = some ⟨headers, target⟩
  known : Known name v.cache

variable {zone : Calendar.Zone} {name target : Bytes}

theorem Known.of_findStr {cache cache' : StatCache MountData} (h : Known name cache)
    (hfind : cache'.findStr name = cache.findStr name ∨ cache'.findStr name = none) :
    Known name cache' := by
  intro entry hentry
  rcases hfind with hfind | hfind
  · exact h entry (hfind.symm.trans hentry)
  · rw [hfind] at hentry
    cases hentry

/-- A write keeps the type. -/
theorem Known.write {file : Bytes} {f g : MountFile} (h : Known name v.cache)
    (hfind : v.cache.findStr (normalizePath file) = some ⟨normalizePath file, some f⟩)
    (htype : g.info.fileType = f.info.fileType) : Known name (v.write file g).cache := by
  by_cases hname : name = normalizePath file
  · subst hname
    intro entry hentry
    obtain ⟨f', hf', htype'⟩ := h _ hfind
    obtain rfl := Option.some.inj hf'
    rw [findStr_write_self hfind] at hentry
    obtain rfl := Option.some.inj hentry
    exact ⟨g, rfl, htype.trans htype'⟩
  · exact h.of_findStr (.inl (findStr_write_of_ne hname))

theorem Known.delete {answer : WriteAnswer} {filename : Bytes} (h : Known name v.cache)
    (hne : name ≠ filename) : Known name (v.deleteFile answer filename).2.cache := by
  refine h.of_findStr (.inl ?_)
  rw [deleteFile_cache, findStr_deleteStatEntry, if_neg hne]

/-- The headers of the link are read. -/
theorem Linked.missFileStat_eq_ok (h : v.Linked zone name target) (hw : Truthful v.objects w)
    (hreliable : Reliable zone name w) :
    ∃ info, missFileStat w.toStatWorld name = .ok info ∧ info.fileType = 108 := by
  obtain ⟨fi, headers, hheaders, htype, hperm, hpos, hyear, hobject⟩ := h.object
  obtain ⟨o, ho, hhead⟩ := hw.head name hreliable.head
  obtain rfl := Option.some.inj (hobject.symm.trans ho)
  rw [← hreliable.zone] at hheaders hyear
  obtain ⟨info, hinfo, hsame⟩ := s3GetFileStat_spec name (.inr (.inr htype)) hperm
    (getHeaderTime_formatTime w.ctx hpos hyear) hheaders hhead.returned
  have hfound : headFileStat w.toStatWorld name = .ok info := by
    rw [headFileStat, submitHead, if_pos hreliable.head]
    exact hinfo
  refine ⟨info, by rw [missFileStat, lookupFileStat, hfound], ?_⟩
  rw [hsame.fileType, readBack, htype]
  rfl

/-- The link is found. -/
theorem Linked.fileStat_eq_ok (h : v.Linked zone name target) (hw : Truthful v.objects w)
    (hreliable : Reliable zone name w) (hsecret : ¬ isS3DirectoryFile <:+ name) {file : Bytes}
    (hfile : normalizePath file = name) :
    ∃ f, (v.fileStat w file).1 = .ok f ∧ f.info.fileType = 108 := by
  obtain ⟨info, hinfo, htype⟩ := h.missFileStat_eq_ok hw hreliable
  simp only [fileStat, mountFileStat, hfile, if_neg hsecret]
  cases hfind : v.cache.findStr name with
  | none =>
      simp only [hinfo]
      exact ⟨.ofInfo info, rfl, htype⟩
  | some entry =>
      obtain ⟨f, hf, htype'⟩ := h.known entry hfind
      simp only [hf]
      exact ⟨f, rfl, htype'⟩

theorem Linked.fileStat (h : v.Linked zone name target) (hw : Truthful v.objects w)
    (hreliable : Reliable zone name w) (hsecret : ¬ isS3DirectoryFile <:+ name) (file : Bytes) :
    (v.fileStat w file).2.Linked zone name target where
  agree := h.agree.fileStat hw file
  object := h.object
  known := by
    by_cases hfile : normalizePath file = name
    · obtain ⟨f, hf, htype⟩ := h.fileStat_eq_ok hw hreliable hsecret hfile
      have hfind := (findStr_of_fileStat h.agree.wellFormed hf).2
      rw [hfile] at hfind
      intro entry hentry
      obtain rfl := Option.some.inj (hfind.symm.trans hentry)
      exact ⟨f, rfl, htype⟩
    · exact h.known.of_findStr
        (findStr_mountFileStat_ne (by decide) (by decide) h.agree.wellFormed (Ne.symm hfile))

/-- **A link stays as it is** as long as it is left alone. -/
theorem Linked.change (h : v.Linked zone name target) (hname : Reported name) {call : VolumeCall}
    (hcall : v.Ordinary (w, call)) (halone : LeavesAlone name call)
    (hreliable : Reliable zone name w) (hchange : Change w v call v') :
    v'.Linked zone name target := by
  have hagree := h.agree.change hcall hchange
  have hlook := h.fileStat hcall.truthful hreliable hname.2
  have hsecret : ∀ dirname : Bytes, name ≠ dirname ++ isS3DirectoryFile := by
    rintro dirname rfl
    exact hname.2 (List.suffix_append _ _)
  obtain ⟨fi, headers, hheaders, htype, hperm, hpos, hyear, hobject⟩ := h.object
  suffices hkept : v'.objects name = v.objects name ∧ Known name v'.cache from
    ⟨hagree, ⟨fi, headers, hheaders, htype, hperm, hpos, hyear, hkept.1.trans hobject⟩, hkept.2⟩
  cases hchange with
  | look call => exact ⟨rfl, (hlook _).known⟩
  | @update call f fi' headers' hupdates hf htype hsize hheaders' =>
      have hnormal := hcall.normal call.file (VolumeCall.file_mem_paths hupdates)
      have hne : name ≠ call.file := by
        cases call <;> first | exact Ne.symm halone | cases hupdates
      refine ⟨copyObject_objects_of_ne headers' hne, ?_⟩
      rw [copyObject_cache]
      exact (hlook call.file).known.write (findStr_of_fileStat h.agree.wellFormed hf).2 htype
  | @createLink linkname path headers' hheaders' =>
      have hne : name ≠ linkname := Ne.symm halone
      have hnone : (v.cache.deleteStatEntry linkname).findStr linkname = none :=
        (findStr_deleteStatEntry _ _ _).trans (if_pos rfl)
      have hold := findStr_insertCacheElement_of_ne (by decide) (by decide)
        (h.agree.wellFormed.deleteStatEntry linkname) hnone
        (some ⟨linkInfo w.toUpdateWorld path.bytes, some path.bytes, w.unsetFd⟩) hne
      rw [findStr_deleteStatEntry, if_neg hne] at hold
      exact ⟨request_objects_of_ne v _ _ hne, h.known.of_findStr hold⟩
  | @mkdir dirname mode headers' hheaders' =>
      have hold := findStr_update (v.cache.searchStatEntry (cleanPath dirname)).2
        (cleanPath dirname) (fun _ => some ⟨directoryInfo w.toUpdateWorld mode, none, 0⟩) name
      rw [if_neg (Ne.symm halone), findStr_searchStatEntry h.agree.wellFormed.distinct] at hold
      exact ⟨request_objects_of_ne v _ _ (hsecret _), h.known.of_findStr (.inl hold)⟩
  | unlink => exact ⟨deleteFile_objects_of_ne v _ (Ne.symm halone), h.known.delete (Ne.symm halone)⟩
  | rmdirSecret =>
      exact ⟨deleteFile_objects_of_ne _ _ (Ne.symm halone.2),
        (hlook _).known.delete (Ne.symm halone.2)⟩
  | rmdir =>
      exact ⟨(deleteFile_objects_of_ne _ _ (Ne.symm halone.1)).trans
          (deleteFile_objects_of_ne _ _ (Ne.symm halone.2)),
        ((hlook _).known.delete (Ne.symm halone.2)).delete (Ne.symm halone.1)⟩
  | readLink hf htype hsize hget =>
      exact ⟨rfl, (hlook _).known.write (findStr_of_fileStat h.agree.wellFormed hf).2 rfl⟩
  | openFails hf htype hclosed hopened =>
      exact ⟨rfl, (hlook _).known.write (findStr_of_fileStat h.agree.wellFormed hf).2 rfl⟩
  | openCopy hf htype hclosed hopened hname =>
      exact ⟨rfl, (hlook _).known.write (findStr_of_fileStat h.agree.wellFormed hf).2 rfl⟩
  | fileClose hf =>
      exact ⟨rfl, (hlook _).known.write (findStr_of_fileStat h.agree.wellFormed hf).2 rfl⟩
  | openOther hfd hnone => exact ⟨rfl, h.known⟩
  | closeOther hother => exact ⟨rfl, h.known⟩

/-- A link that has just been created is there. -/
theorem linked_of_createLink (h : v.LinksAgree) {path : CString} {status : ℤ}
    (hcall : v.Ordinary (w, .createLink name path)) (hpos : 0 ≤ w.now)
    (hyear : (Calendar.Time.ofSeconds (w.ctx.zone.clock w.now)).date.year ≤ 9999)
    (hcreated : v.s3CreateLink w name path = some (status, v')) :
    v'.Linked w.ctx.zone name path.bytes := by
  have hstep : v.step (w, .createLink name path) = some v' := by
    simp only [step, hcreated, Option.map_some]
  have hagree := h.change hcall (change_of_step hstep)
  obtain ⟨-, hdone⟩ := hcall.created _ _ rfl
  obtain ⟨headers, hheaders, hcreated⟩ := Option.bind_eq_some_iff.1 hcreated
  obtain rfl := (Prod.mk.inj (Option.some.inj hcreated)).2
  refine ⟨hagree, ⟨_, headers, hheaders, rfl, show (511 : UInt32) ≤ 511 by decide, hpos, hyear,
    ?_⟩, ?_⟩
  · exact (request_objects_self v _ _ _).trans (if_pos hdone)
  · have hnone : (v.cache.deleteStatEntry name).findStr name = none :=
      (findStr_deleteStatEntry _ _ _).trans (if_pos rfl)
    have hfind := findStr_insertCacheElement (by decide) (by decide)
      (h.wellFormed.deleteStatEntry name) hnone
      (some ⟨linkInfo w.toUpdateWorld path.bytes, some path.bytes, w.unsetFd⟩) name
    rw [if_pos rfl] at hfind
    intro entry hentry
    simp only [request_cache] at hentry
    obtain rfl := Option.some.inj (hfind.symm.trans hentry)
    exact ⟨_, rfl, rfl⟩

/-- What is read of a link that is there. -/
theorem Linked.readLink (h : v.Linked zone name target) (hname : Reported name)
    (hroot : name ≠ [47]) (hnul : 0 ∉ target) (hlength : target.length ≤ 4096)
    (hw : Truthful v.objects w) (hreliable : Reliable zone name w) :
    (v.s3ReadLink w name).1 = (0, some target) := by
  obtain ⟨f, hf, htype⟩ := h.fileStat_eq_ok hw hreliable hname.2 hname.1
  have hfind := (findStr_of_fileStat h.agree.wellFormed hf).2
  rw [hname.1] at hfind
  obtain ⟨o, ho, -, hsize, htarget⟩ :=
    (h.agree.fileStat hw name).entries.of_findStr hfind htype hroot
  obtain ⟨fi, headers, -, -, -, -, -, hobject⟩ := h.object
  obtain rfl := Option.some.inj (hobject.symm.trans ho)
  have hget := hw.get_eq_body ho hsize (hreliable.get _)
  have hstat : v.fileStat w name = (.ok f, (v.fileStat w name).2) := Prod.ext hf rfl
  rw [s3ReadLink, hstat]
  simp only [htype, ne_eq, not_true_eq_false, if_false]
  cases hcached : f.symlinkTarget with
  | some target' =>
      have heq : target' = stringIn target := htarget target' hcached
      rw [stringIn_eq_self hnul] at heq
      simp only [heq]
  | none =>
      have hle : f.info.size % 2 ^ 64 ≤ 4096 := by
        rw [hsize]
        simp only []
        omega
      simp only [if_pos hle, if_pos (hreliable.get _), hget, stringIn_eq_self hnul]

/-- **A link that is created is read back**, up to the length of the buffer, whatever is done to
other files in between, whether or not its entry is still in the cache. -/
theorem readlink_symlink {before : List (VolumeWorld × VolumeCall)} {w₀ : VolumeWorld}
    {v₀ v₁ v₂ : Volume} {path : CString} {length : ℕ} (hempty : start.cache = [])
    (hproper : ∀ name o, start.objects name = some o → IsLink o → Reported name)
    (halong : Along step (fun v a _ => v.Ordinary a) start before)
    (hrun : run step start before = some v₀)
    (hcall : v₀.Ordinary (w₀, .createLink name path)) (hroot : name ≠ [47])
    (hpos : 0 ≤ w₀.now)
    (hyear : (Calendar.Time.ofSeconds (w₀.ctx.zone.clock w₀.now)).date.year ≤ 9999)
    (hlength : path.bytes.length ≤ 4096) (hcreated : v₀.s3CreateLink w₀ name path = some (0, v₁))
    (halong' : Along step (fun v a _ => v.Ordinary a ∧ LeavesAlone name a.2 ∧
      Reliable w₀.ctx.zone name a.1) v₁ calls)
    (hrun' : run step v₁ calls = some v₂) (hw : Truthful v₂.objects w)
    (hreliable : Reliable w₀.ctx.zone name w) (hbuffer : 0 < length) :
    (v₂.s3fsReadlink w name length).1 = (0, some (path.bytes.take (length - 1))) := by
  have hname : Reported name :=
    ⟨hcall.normal name (List.mem_singleton_self name), (hcall.created _ _ rfl).1⟩
  have hagree := linksAgree_of_run hempty hproper halong hrun
  have hlinked := linked_of_createLink hagree hcall hpos hyear hcreated
  have hlinked' : v₂.Linked w₀.ctx.zone name path.bytes := by
    refine run_inv (fun v a v' h hstep hv' => ?_) hlinked halong' hrun'
    exact h.change hname hstep.1 hstep.2.1 hstep.2.2 (change_of_step hv')
  have hread := hlinked'.readLink hname hroot path.noNul hlength hw hreliable
  have hresult : v₂.s3ReadLink w name = ((0, some path.bytes), (v₂.s3ReadLink w name).2) :=
    Prod.ext hread rfl
  rw [s3fsReadlink, hresult]
  simp only []
  split
  · rfl
  · rw [List.take_of_length_le (by omega)]

/-- What a call meets when there is nothing in the bucket, in June. -/
def emptyBucket : VolumeWorld where
  ctx := june (.fixed 0 abs_zero_lt_int)
  garbage := []
  head := fun _ => ⟨some 404, []⟩
  now := 1340100246
  put := some 200
  done := true
  deleted := ⟨some 204, true⟩
  get := fun _ _ => (some 404, [])
  empty := true
  unsetFd := 0
  response := 0
  download := 0
  localFilename := none
  opened := -1

/-- A link to a file with a short name. -/
def shortTarget : CString := ⟨ascii "t", by decide⟩

/-- The name of a link. -/
def linkName : Bytes := ascii "/l"

/-- What a call meets when there is nothing in the bucket but the link. -/
def linkBucket (headers : List (Bytes × Bytes)) : VolumeWorld :=
  { emptyBucket with
    head := fun name =>
      if name = linkName then
        ⟨some 200, headers.filter (stored ·.1) ++ [(ascii "Content-Length", formatInt 1)]⟩
      else ⟨some 404, []⟩
    get := fun _ name =>
      if name = linkName then (some 200, [⟨shortTarget.bytes, fun _ => 0⟩]) else (some 404, []) }

theorem truthful_emptyBucket (objects : Bytes → Option StoredObject) :
    Truthful objects emptyBucket := by
  have hstatus : submitStatus (some 404) ≠ 0 := by decide
  exact ⟨fun _ h => absurd h hstatus, fun _ _ h => absurd h hstatus⟩

theorem headOf_linkBucket (headers : List (Bytes × Bytes)) :
    HeadOf (linkBucket headers).ctx ⟨headers, shortTarget.bytes⟩
      (headers.filter (stored ·.1) ++ [(ascii "Content-Length", formatInt 1)]) where
  returned := by
    constructor
    · intro h hh hstored
      exact List.mem_append_left _ (List.mem_filter.2 ⟨hh, hstored⟩)
    · intro h hh
      rcases List.mem_append.1 hh with hh | hh
      · exact .inl (List.mem_filter.1 hh)
      · obtain rfl := List.mem_singleton.1 hh
        refine .inr fun b => ?_
        have hfield : headerField (ascii "Content-Length") = some .contentLength := by
          decide +kernel
        refine ⟨⟨{ b.info with size := 1 }, 1⟩, ?_, rfl, rfl, rfl, rfl, rfl, rfl, rfl, rfl⟩
        rw [decodeHeader_int hfield rfl, StatBuffer.setInt,
          getHeaderInt_formatInt _ (by decide) (by decide)]
        rfl
  length := List.mem_append_right _ (List.mem_singleton_self _)
  lengths := by
    intro h hh hkey
    rcases List.mem_append.1 hh with hh | hh
    · have hstored := (List.mem_filter.1 hh).2
      rw [hkey] at hstored
      exact absurd hstored (by decide +kernel)
    · rw [List.mem_singleton.1 hh]
      rfl
  small := show 1 < 2 ^ 63 by decide

theorem truthful_linkBucket {headers : List (Bytes × Bytes)}
    {objects : Bytes → Option StoredObject}
    (hlink : objects linkName = some ⟨headers, shortTarget.bytes⟩) :
    Truthful objects (linkBucket headers) := by
  have hstatus : submitStatus (some 404) ≠ 0 := by decide
  constructor
  · intro name h
    simp only [linkBucket] at h ⊢
    split at h
    · rename_i hname
      rw [hname, if_pos rfl]
      exact ⟨_, hlink, headOf_linkBucket headers⟩
    · exact absurd h hstatus
  · intro size name h
    simp only [linkBucket] at h ⊢
    split at h
    · rename_i hname
      rw [hname, if_pos rfl]
      refine ⟨_, hlink, ?_, by simp, by decide⟩
      rw [served]
      split
      · exact (List.take_of_length_le (show 1 ≤ size.toNat by omega)).symm
      · rfl
    · exact absurd h hstatus

/-- The volume after the link has been created. -/
def linkVolume (headers : List (Bytes × Bytes)) : Volume where
  objects := Function.update (fun _ => none) linkName (some ⟨headers, shortTarget.bytes⟩)
  cache := [⟨linkName, some ⟨linkInfo emptyBucket.toUpdateWorld shortTarget.bytes,
    some shortTarget.bytes, 0⟩⟩]
  descriptors := fun _ => none

/-- A link is created where there is nothing. -/
theorem exists_createLink_emptyVolume :
    ∃ headers, emptyVolume.s3CreateLink emptyBucket linkName shortTarget =
      some (0, linkVolume headers) := by
  obtain ⟨headers, hheaders⟩ : ∃ headers, createHeadersFromFileInfo emptyBucket.ctx.zone
      (linkInfo emptyBucket.toUpdateWorld shortTarget.bytes) = some headers :=
    exists_createHeadersFromFileInfo (by decide) (by decide +kernel)
  refine ⟨headers, ?_⟩
  have hinsert : (emptyVolume.cache.deleteStatEntry linkName).insertCacheElement
      maxStatCacheSize linkName (some ⟨linkInfo emptyBucket.toUpdateWorld shortTarget.bytes,
        some shortTarget.bytes, 0⟩) = (linkVolume headers).cache :=
    insertCacheElement_eq (by decide) (by decide) (Nat.zero_le _) rfl _
  have hstatus : submitStatus emptyBucket.put = 0 := by decide
  have hrequest : emptyVolume.request emptyBucket.written linkName
      (some ⟨headers, shortTarget.bytes⟩) = { linkVolume headers with cache := [] } := rfl
  rw [s3CreateLink, hheaders, Option.bind_eq_bind, Option.bind_some, hrequest, hstatus]
  exact congrArg (fun cache => some ((0 : ℤ), { linkVolume headers with cache := cache })) hinsert

theorem ordinary_createLink :
    emptyVolume.Ordinary (emptyBucket, .createLink linkName shortTarget) where
  truthful := truthful_emptyBucket _
  normal := by decide +kernel
  created := by
    rintro linkname path h
    obtain ⟨rfl, rfl⟩ := VolumeCall.createLink.inj h
    exact ⟨by decide +kernel, rfl⟩

theorem readLink_eq_content_shortTarget :
    ∃ headers, emptyVolume.s3CreateLink emptyBucket linkName shortTarget =
        some (0, linkVolume headers) ∧
      ∃ o, (linkVolume headers).objects linkName = some o ∧ IsLink o ∧
        shortTarget.bytes = stringIn o.body := by
  obtain ⟨headers, hcreated⟩ := exists_createLink_emptyVolume
  have hstep : emptyVolume.step (emptyBucket, .createLink linkName shortTarget) =
      some (linkVolume headers) := by
    simp only [step, hcreated, Option.map_some]
  have halong : Along step (fun v a _ => v.Ordinary a) emptyVolume
      [(emptyBucket, .createLink linkName shortTarget)] :=
    fun _ _ => ⟨ordinary_createLink, trivial⟩
  exact ⟨headers, hcreated, readLink_eq_content rfl (fun _ _ h => by cases h) halong
    (run_cons.2 ⟨_, hstep, rfl⟩)
    ⟨truthful_emptyBucket _, by decide +kernel, fun _ _ h => by cases h⟩ (by decide +kernel) rfl⟩

theorem readlink_symlink_shortTarget :
    ∃ headers, emptyVolume.s3CreateLink emptyBucket linkName shortTarget =
        some (0, linkVolume headers) ∧
      (((linkVolume headers).s3Unlink (linkBucket headers) (ascii "/m")).2.s3fsReadlink
        (linkBucket headers) linkName 100).1 = (0, some shortTarget.bytes) := by
  obtain ⟨headers, hcreated⟩ := exists_createLink_emptyVolume
  have hstatus : submitStatus (some 200) = 0 := by decide
  have hreliable : Reliable (.fixed 0 (by decide)) linkName (linkBucket headers) := by
    refine ⟨rfl, ?_, fun size => ?_⟩
    · simp only [linkBucket, if_true]
      exact hstatus
    · simp only [linkBucket, if_true]
      exact hstatus
  have hobject : (linkVolume headers).objects linkName = some ⟨headers, shortTarget.bytes⟩ := rfl
  have hkept : ((linkVolume headers).s3Unlink (linkBucket headers) (ascii "/m")).2.objects
      linkName = some ⟨headers, shortTarget.bytes⟩ :=
    (deleteFile_objects_of_ne _ _ (by decide +kernel)).trans hobject
  have hnormal : ∀ path ∈ [ascii "/m"], normalizePath path = path := by decide +kernel
  have halone : cleanPath (ascii "/m") ≠ linkName := by decide +kernel
  have halong : Along step (fun v a _ => v.Ordinary a ∧ LeavesAlone linkName a.2 ∧
      Reliable (.fixed 0 (by decide)) linkName a.1) (linkVolume headers)
      [(linkBucket headers, .unlink (ascii "/m"))] :=
    fun _ _ => ⟨⟨⟨truthful_linkBucket hobject, hnormal, fun _ _ h => by cases h⟩, halone,
      hreliable⟩, trivial⟩
  exact ⟨headers, hcreated, readlink_symlink rfl (fun _ _ h => by cases h)
    (show Along step (fun v a _ => v.Ordinary a) emptyVolume [] from trivial) rfl
    ordinary_createLink (by decide +kernel) (by decide) (by decide +kernel) (by decide) hcreated
    halong rfl (truthful_linkBucket hkept) hreliable (by decide)⟩

end Reports

end Volume

end AwsS3fs
