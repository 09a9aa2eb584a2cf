/-
**Listings page by page.**

S3 lists a directory in pages, each of them an XML document.  `ReadXmlDirectory` (`s3if.c`) walks
through such a document and appends the names it finds; on the way it notes the marker for the next
page, or that there is none.  `S3ReadDir` asks for pages as long as there is a marker, and then
takes the names over into an array, without the slashes at their ends and without the file by which
a directory is recognised.

Here the server is a function from the number of a request and its query to a response, so that
nothing is assumed of the pages that are not asked for.  A loop that may not end has a bound on its
rounds, and returns nothing when it needs more of them.

Main definitions:

* `AwsS3fs.XmlNode`, `AwsS3fs.readXmlNode` — the nodes of a document, and the walk through them;
* `AwsS3fs.readAllPages`, `AwsS3fs.s3ReadDirPages` — the loop and `S3ReadDir` around it;
* `AwsS3fs.WellFormedPages` — **the pages of a listing**;
* `AwsS3fs.pageQueries`, `AwsS3fs.listedEntries` — the requests for them, and the entries in them.

Main results:

* `AwsS3fs.readXmlNode_eq` — **what is read from a page**;
* `AwsS3fs.readAllPages_of_chained` — the loop reads all pages;
* `AwsS3fs.s3ReadDirPages_complete` — **a listing is complete**;
* `AwsS3fs.directory_readAllPages` — on the pages of a bucket the loop is that of
  `AwsS3fs.readPages`.
-/

import AwsS3fs.DirectoryListings

set_option relaxedAutoImplicit false
set_option autoImplicit false

namespace AwsS3fs

open CLib DirectoryCache ObjectStore

/-! ### Documents -/

/-- A node of a document with its `children`, and the `next` one. -/
inductive XmlNode
  | null
  | element (name : Bytes) (children next : XmlNode)
  | text (content : Bytes) (next : XmlNode)
  | other (children next : XmlNode)

/-- The text in a node and in those after it. -/
def XmlNode.content : XmlNode → Bytes
  | .null => []
  | .element _ children next => children.content ++ next.content
  | .text content next => content ++ next.content
  | .other _ next => next.content

/-- `xmlNodeGetContent` of an element with these children. -/
def xmlNodeGetContent (children : XmlNode) : Bytes := children.content

/-- The list of names, the marker and the number of names, which `ReadXmlDirectory` changes. -/
structure PageReader where
  directory : List Bytes
  marker : Option Bytes
  nFiles : ℤ
deriving DecidableEq

/-- What `ReadXmlDirectory` does with an element. -/
def PageReader.visit (prefixLength : ℕ) (r : PageReader) (nodeName nodeValue : Bytes) :
    PageReader :=
  if nodeName = ascii "Key" ∨ nodeName = ascii "Prefix" then
    -- strip the prefix from the path and add the directory
    if nodeValue.drop prefixLength ≠ [] then
      { r with
        directory := r.directory ++ [nodeValue.drop prefixLength]
        nFiles := r.nFiles + 1 }
    else r
  else if nodeName = ascii "NextMarker" then
    if nodeValue.length ≠ 0 then { r with marker := some nodeValue } else r
  else if nodeName = ascii "IsTruncated" then
    if nodeValue = ascii "false" then { r with marker := none } else r
  else r

/-- `ReadXmlDirectory`. -/
def readXmlNode (prefixLength : ℕ) : XmlNode → PageReader → PageReader
  | .null, r => r
  | .element name children next, r =>
      readXmlNode prefixLength next
        (readXmlNode prefixLength children (r.visit prefixLength name (xmlNodeGetContent children)))
  | .text _ next, r => readXmlNode prefixLength next r
  | .other children next, r =>
      readXmlNode prefixLength next (readXmlNode prefixLength children r)

/-! ### Requests -/

/-- `EncodeUrl`. -/
def encodeUrl (url : Bytes) : Bytes :=
  url.flatMap fun ch =>
    let hexChar := ascii "0123456789ABCDEF"
    if isalnum ch ∨ ch = 45 ∨ ch = 95 ∨ ch = 46 ∨ ch = 126 then [ch]
    else if ch = 32 then [43]
    else [37, hexChar.getD (ch.toNat / 16) 0, hexChar.getD (ch.toNat % 16) 0]

/-- `queryBase`.  Of the strings that are copied to `relativeRoot`, the last one remains. -/
def queryBase (pre : Bytes) (maxRead : ℤ) : Bytes :=
  let relativeRoot := ascii "/"
  let delimiter := ascii "/"
  let query := relativeRoot ++ ascii "?delimiter=" ++ delimiter
  let query := if maxRead ≠ -1 then query ++ ascii "&max-keys=" ++ formatInt maxRead else query
  if pre.length = 0 then query else query ++ ascii "&prefix=" ++ encodeUrl pre ++ ascii "/"

/-- `query`: the base query, and a marker. -/
def listQuery (base : Bytes) : Option Bytes → Bytes
  | none => base
  | some fromFile => base ++ ascii "&marker=" ++ encodeUrl fromFile

/-- A response: the status of `s3_SubmitS3Request`, and the root of the document if it can be read
and has one. -/
structure ListResponse where
  status : ℤ
  root : Option XmlNode

/-- `prefixToSkip`. -/
def prefixToSkip (pre : Bytes) : ℕ := if pre.length + 1 = 1 then 0 else pre.length + 1

/-- One request in the loop of `S3ReadDir`: the status, and what is read. -/
def readPage (pre : Bytes) (response : ListResponse) (r : PageReader) : ℤ × PageReader :=
  if response.status = 0 then
    match response.root with
    | none => (eio, r)
    | some root => (0, readXmlNode (prefixToSkip pre) root r)
  else (response.status, r)

/-- The condition of the loop. -/
def PageReader.more (maxRead : ℤ) (r : PageReader) : Prop :=
  r.marker ≠ none ∧ r.nFiles ≤ fileLimit maxRead

instance (maxRead : ℤ) (r : PageReader) : Decidable (r.more maxRead) :=
  inferInstanceAs (Decidable (_ ∧ _))

/-- The loop of `S3ReadDir`, from request `i` on: the status, what is read and the queries. -/
def readAllPages (respond : ℕ → Bytes → ListResponse) (pre : Bytes) (maxRead : ℤ) :
    ℕ → ℕ → PageReader → Option (ℤ × PageReader × List Bytes)
  | 0, _, _ => none
  | rounds + 1, i, r =>
      let query := listQuery (queryBase pre maxRead) r.marker
      let page := readPage pre (respond i query) r
      if page.2.more maxRead then
        (readAllPages respond pre maxRead rounds (i + 1) page.2).map fun rest =>
          (rest.1, rest.2.1, query :: rest.2.2)
      else some (page.1, page.2, [query])

/-- `S3ReadDir`: what it returns, and the queries of its requests. -/
def s3ReadDirPages (respond : ℕ → Bytes → ListResponse) (cache : DirectoryCache) (dirname : Bytes)
    (maxRead : ℤ) (rounds : ℕ) : Option (ReadDirResult × List Bytes) :=
  let pre := readDirPrefix dirname
  let parentDir := 47 :: pre
  match cache.lookupInDirectoryCache parentDir with
  | (some entry, cache) => some (⟨0, entry.contents, entry.size, cache⟩, [])
  | (none, cache) =>
      (readAllPages respond pre maxRead rounds 0 ⟨[], none, 0⟩).map fun (status, r, queries) =>
        let nFiles := r.nFiles + 2 - (r.directory.map stripTrailingSlash).count secretName
        (⟨status, dirArray r.directory, nFiles,
          cache.insertInDirectoryCache parentDir nFiles (dirArray r.directory)⟩, queries)

/-! ### What is in a page -/

/-- The elements of a document in their order, with their names and their text. -/
def XmlNode.elements : XmlNode → List (Bytes × Bytes)
  | .null => []
  | .element name children next =>
      (name, xmlNodeGetContent children) :: (children.elements ++ next.elements)
  | .text _ next => next.elements
  | .other children next => children.elements ++ next.elements

/-- The names in a page: the values of `Key` and `Prefix`. -/
def XmlNode.names (page : XmlNode) : List Bytes :=
  (page.elements.filter fun e => e.1 = ascii "Key" ∨ e.1 = ascii "Prefix").map (·.2)

/-- The markers in a page that are not empty. -/
def XmlNode.nextMarkers (page : XmlNode) : List Bytes :=
  (page.elements.filter fun e => e.1 = ascii "NextMarker" ∧ e.2 ≠ []).map (·.2)

/-- The page says that it is the last one. -/
def XmlNode.IsLast (page : XmlNode) : Prop := (ascii "IsTruncated", ascii "false") ∈ page.elements

instance (page : XmlNode) : Decidable page.IsLast := inferInstanceAs (Decidable (_ ∈ _))

/-- The walk visits the elements in their order. -/
theorem readXmlNode_eq_foldl (prefixLength : ℕ) (page : XmlNode) (r : PageReader) :
    readXmlNode prefixLength page r
      = page.elements.foldl (fun r e => r.visit prefixLength e.1 e.2) r := by
  induction page generalizing r with
  | null => rfl
  | element name children next ihchildren ihnext =>
      rw [readXmlNode, ihnext, ihchildren, XmlNode.elements, List.foldl_cons, List.foldl_append]
  | text content next ih => exact ih r
  | other children next ihchildren ihnext =>
      rw [readXmlNode, ihnext, ihchildren, XmlNode.elements, List.foldl_append]

/-- An element that is a name is appended to the list; no other one changes it. -/
theorem PageReader.directory_visit (prefixLength : ℕ) (r : PageReader) (e : Bytes × Bytes) :
    (r.visit prefixLength e.1 e.2).directory = r.directory ++ readXmlDirectory prefixLength
        (([e].filter fun e => e.1 = ascii "Key" ∨ e.1 = ascii "Prefix").map (·.2)) ∧
      (r.visit prefixLength e.1 e.2).nFiles = r.nFiles + (readXmlDirectory prefixLength
        (([e].filter fun e => e.1 = ascii "Key" ∨ e.1 = ascii "Prefix").map (·.2))).length := by
  obtain ⟨name, value⟩ := e
  unfold visit
  by_cases hname : name = ascii "Key" ∨ name = ascii "Prefix"
  · rw [if_pos hname, List.filter_cons_of_pos (by simpa using hname)]
    by_cases hempty : value.drop prefixLength = []
    · simp [readXmlDirectory, hempty]
    · simp [readXmlDirectory, hempty]
  · rw [if_neg hname, List.filter_cons_of_neg (by simpa using hname)]
    simp only [readXmlDirectory, List.filter_nil, List.map_nil, List.append_nil, List.length_nil]
    split
    · split <;> simp
    · split
      · split <;> simp
      · simp

/-- **The names that are read from a page.** -/
theorem directory_readXmlNode (prefixLength : ℕ) (page : XmlNode) (r : PageReader) :
    (readXmlNode prefixLength page r).directory
        = r.directory ++ readXmlDirectory prefixLength page.names ∧
      (readXmlNode prefixLength page r).nFiles
        = r.nFiles + (readXmlDirectory prefixLength page.names).length := by
  rw [readXmlNode_eq_foldl, XmlNode.names]
  induction page.elements generalizing r with
  | nil => simp [readXmlDirectory]
  | cons e es ih =>
      obtain ⟨hdirectory, hcount⟩ := ih (r.visit prefixLength e.1 e.2)
      obtain ⟨hvisit, hvisit'⟩ := r.directory_visit prefixLength e
      have hsplit : ((e :: es).filter fun e => e.1 = ascii "Key" ∨ e.1 = ascii "Prefix").map (·.2)
          = ([e].filter fun e => e.1 = ascii "Key" ∨ e.1 = ascii "Prefix").map (·.2)
            ++ (es.filter fun e => e.1 = ascii "Key" ∨ e.1 = ascii "Prefix").map (·.2) := by
        rw [← List.map_append, ← List.filter_append, List.singleton_append]
      rw [List.foldl_cons, hdirectory, hcount, hvisit, hvisit', hsplit, readXmlDirectory_append]
      simp only [List.append_assoc, List.length_append, Nat.cast_add, Int.add_assoc, and_self]

/-- The marker after an element: none behind the last page, or one that is not empty. -/
theorem PageReader.marker_visit (prefixLength : ℕ) (r : PageReader) (e : Bytes × Bytes) :
    (r.visit prefixLength e.1 e.2).marker =
      if e = (ascii "IsTruncated", ascii "false") then none
      else if e.1 = ascii "NextMarker" ∧ e.2 ≠ [] then some e.2
      else r.marker := by
  obtain ⟨name, value⟩ := e
  have hmarker : ¬ (ascii "NextMarker" = ascii "Key" ∨ ascii "NextMarker" = ascii "Prefix") := by
    decide +kernel
  have htruncated : ¬ (ascii "IsTruncated" = ascii "Key" ∨ ascii "IsTruncated" = ascii "Prefix") ∧
      ascii "IsTruncated" ≠ ascii "NextMarker" := by decide +kernel
  unfold visit
  by_cases hname : name = ascii "Key" ∨ name = ascii "Prefix"
  · have hne : name ≠ ascii "IsTruncated" ∧ name ≠ ascii "NextMarker" := by
      constructor
      · rintro rfl
        exact htruncated.1 hname
      · rintro rfl
        exact hmarker hname
    have hlast : (name, value) ≠ (ascii "IsTruncated", ascii "false") :=
      fun h => hne.1 (Prod.mk.inj h).1
    have hnext : ¬ (name = ascii "NextMarker" ∧ value ≠ []) := fun h => hne.2 h.1
    rw [if_pos hname, if_neg hlast, if_neg hnext]
    split <;> rfl
  · rw [if_neg hname]
    by_cases hnext : name = ascii "NextMarker"
    · have hne : ascii "NextMarker" ≠ ascii "IsTruncated" := htruncated.2.symm
      subst hnext
      by_cases hempty : value = []
      · simp [hempty, hne]
      · simp [hempty, hne]
    · rw [if_neg hnext]
      by_cases hlast : name = ascii "IsTruncated"
      · by_cases hfalse : value = ascii "false"
        · simp [hlast, hfalse]
        · simp [hlast, hfalse, htruncated.2]
      · simp [hlast, hnext]

/-- **The marker after a page** that is not the last one: its own marker, the last of them. -/
theorem marker_readXmlNode (prefixLength : ℕ) {page : XmlNode} (h : ¬ page.IsLast)
    (r : PageReader) :
    (readXmlNode prefixLength page r).marker = page.nextMarkers.getLast?.or r.marker := by
  rw [readXmlNode_eq_foldl, XmlNode.nextMarkers]
  rw [XmlNode.IsLast] at h
  generalize page.elements = es at h ⊢
  induction es generalizing r with
  | nil => rfl
  | cons e es ih =>
      obtain ⟨hne, hes⟩ : e ≠ (ascii "IsTruncated", ascii "false") ∧
          (ascii "IsTruncated", ascii "false") ∉ es := by
        rw [List.mem_cons, not_or] at h
        exact ⟨Ne.symm h.1, h.2⟩
      rw [List.foldl_cons, ih _ hes, PageReader.marker_visit, if_neg hne]
      by_cases hnext : e.1 = ascii "NextMarker" ∧ e.2 ≠ []
      · rw [if_pos hnext, List.filter_cons_of_pos (by simpa using hnext), List.map_cons,
          List.getLast?_cons]
        cases ((es.filter fun e => e.1 = ascii "NextMarker" ∧ e.2 ≠ []).map (·.2)).getLast? <;> rfl
      · rw [if_neg hnext, List.filter_cons_of_neg (by simpa using hnext)]

/-- The last page leaves no marker. -/
theorem marker_readXmlNode_of_isLast (prefixLength : ℕ) {page : XmlNode} (h : page.IsLast)
    (hnone : page.nextMarkers = []) (r : PageReader) :
    (readXmlNode prefixLength page r).marker = none := by
  rw [readXmlNode_eq_foldl]
  obtain ⟨a, b, hsplit⟩ := List.append_of_mem h
  rw [XmlNode.nextMarkers, List.map_eq_nil_iff, List.filter_eq_nil_iff, hsplit] at hnone
  have hstays : ∀ (es : List (Bytes × Bytes)) (r : PageReader), r.marker = none →
      (∀ e ∈ es, ¬ (e.1 = ascii "NextMarker" ∧ e.2 ≠ [])) →
      (es.foldl (fun r e => r.visit prefixLength e.1 e.2) r).marker = none := by
    intro es
    induction es with
    | nil => exact fun r hr _ => hr
    | cons e es ih =>
        intro r hr hes
        refine ih _ ?_ fun e he => hes e (List.mem_cons_of_mem _ he)
        rw [PageReader.marker_visit, if_neg (hes e List.mem_cons_self), hr, ite_self]
  rw [hsplit, List.foldl_append, List.foldl_cons]
  refine hstays b _ ?_ fun e he => ?_
  · rw [PageReader.marker_visit, if_pos rfl]
  · simpa using hnone e (List.mem_append_right _ (List.mem_cons_of_mem _ he))

/-! ### The pages of a listing -/

/-- The marker of a page that is not the last one. -/
def XmlNode.nextMarker (page : XmlNode) : Option Bytes := page.nextMarkers.getLast?

/-- A marker exactly on the pages that are not last, and the end exactly on the last one. -/
def PagesChained : List XmlNode → Prop
  | [] => False
  | [page] => page.nextMarkers = [] ∧ page.IsLast
  | page :: pages => page.nextMarkers ≠ [] ∧ ¬ page.IsLast ∧ PagesChained pages

/-- The entries in the pages, without the prefix; the directory itself is none of them. -/
def pageEntries (pre : Bytes) (pages : List XmlNode) : List Bytes :=
  ((pages.flatMap (·.names)).filter (· ≠ pre)).map (·.drop pre.length)

/-- **The pages of a listing** of the names that begin with a prefix. -/
structure WellFormedPages (pre : Bytes) (pages : List XmlNode) : Prop where
  chained : PagesChained pages
  starts : ∀ page ∈ pages, ∀ name ∈ page.names, pre <+: name
  count_le : (pageEntries pre pages).length ≤ 999999

/-- The requests for the pages: each has the marker of the page before it. -/
def pageQueriesFrom (base : Bytes) (marker : Option Bytes) : List XmlNode → List Bytes
  | [] => []
  | page :: pages => listQuery base marker :: pageQueriesFrom base page.nextMarker pages

/-- **The requests for the pages.** -/
def pageQueries (base : Bytes) (pages : List XmlNode) : List Bytes :=
  pageQueriesFrom base none pages

/-- The server answers these requests, from request `i` on, with the pages. -/
def AnswersFrom (respond : ℕ → Bytes → ListResponse) (base : Bytes) :
    ℕ → Option Bytes → List XmlNode → Prop
  | _, _, [] => True
  | i, marker, page :: pages =>
      respond i (listQuery base marker) = ⟨0, some page⟩ ∧
        AnswersFrom respond base (i + 1) page.nextMarker pages

/-- **The server answers the requests** for the pages; of other requests nothing is said. -/
def Answers (respond : ℕ → Bytes → ListResponse) (base : Bytes) (pages : List XmlNode) : Prop :=
  AnswersFrom respond base 0 none pages

/-- The names that are read from a page are the entries in it. -/
theorem readXmlDirectory_names {pre : Bytes} {names : List Bytes}
    (hstarts : ∀ name ∈ names, pre <+: name) :
    readXmlDirectory pre.length names = (names.filter (· ≠ pre)).map (·.drop pre.length) := by
  rw [readXmlDirectory, List.filter_map]
  refine congrArg _ (List.filter_congr fun name hname => ?_)
  obtain ⟨rest, rfl⟩ := hstarts name hname
  simp

theorem pageEntries_cons (pre : Bytes) (page : XmlNode) (pages : List XmlNode) :
    pageEntries pre (page :: pages) = pageEntries pre [page] ++ pageEntries pre pages := by
  simp [pageEntries]

/-- What is skipped is the prefix of the listing. -/
theorem prefixToSkip_eq (pre : Bytes) : prefixToSkip pre = (listPrefix pre).length := by
  cases pre with
  | nil => rfl
  | cons ch name =>
      rw [prefixToSkip, listPrefix, if_neg (List.cons_ne_nil _ _), if_neg (by simp),
        List.length_append]
      rfl

/-- **What is read from a page** of a listing. -/
theorem readPage_eq {pre : Bytes} {page : XmlNode}
    (hstarts : ∀ name ∈ page.names, listPrefix pre <+: name) (r : PageReader) :
    (readPage pre ⟨0, some page⟩ r).1 = 0 ∧
      (readPage pre ⟨0, some page⟩ r).2.directory
        = r.directory ++ pageEntries (listPrefix pre) [page] ∧
      (readPage pre ⟨0, some page⟩ r).2.nFiles
        = r.nFiles + (pageEntries (listPrefix pre) [page]).length := by
  have hentries : readXmlDirectory (prefixToSkip pre) page.names
      = pageEntries (listPrefix pre) [page] := by
    rw [prefixToSkip_eq, readXmlDirectory_names hstarts, pageEntries, List.flatMap_singleton]
  obtain ⟨hdirectory, hcount⟩ := directory_readXmlNode (prefixToSkip pre) page r
  rw [hentries] at hdirectory hcount
  exact ⟨rfl, hdirectory, hcount⟩

/-- **The loop reads all pages**, one after the other. -/
theorem readAllPages_of_chained {respond : ℕ → Bytes → ListResponse} {pre : Bytes}
    {pages : List XmlNode} (hchained : PagesChained pages)
    (hstarts : ∀ page ∈ pages, ∀ name ∈ page.names, listPrefix pre <+: name) {i : ℕ}
    {r : PageReader} (hanswers : AnswersFrom respond (queryBase pre (-1)) i r.marker pages)
    (hcount : r.nFiles + (pageEntries (listPrefix pre) pages).length ≤ 999999) :
    readAllPages respond pre (-1) pages.length i r =
      some (0, ⟨r.directory ++ pageEntries (listPrefix pre) pages, none,
          r.nFiles + (pageEntries (listPrefix pre) pages).length⟩,
        pageQueriesFrom (queryBase pre (-1)) r.marker pages) := by
  induction pages generalizing i r with
  | nil => exact hchained.elim
  | cons page pages ih =>
      obtain ⟨hrespond, hrest⟩ := hanswers
      obtain ⟨hstatus, hdirectory, hnFiles⟩ := readPage_eq (hstarts page List.mem_cons_self) r
      have hmarker : (readPage pre ⟨0, some page⟩ r).2.marker
          = (readXmlNode (prefixToSkip pre) page r).marker := rfl
      rw [List.length_cons, readAllPages, hrespond]
      generalize readPage pre ⟨0, some page⟩ r = read at hstatus hdirectory hnFiles hmarker ⊢
      obtain ⟨status, directory, marker, nFiles⟩ := read
      obtain rfl : status = 0 := hstatus
      obtain rfl := hdirectory
      obtain rfl := hnFiles
      change marker = _ at hmarker
      cases pages with
      | nil =>
          -- the last page has no marker, and the loop ends
          rw [marker_readXmlNode_of_isLast _ hchained.2 hchained.1] at hmarker
          subst hmarker
          rw [if_neg (by simp [PageReader.more])]
          rfl
      | cons next pages =>
          obtain ⟨hnext, hnotLast, hchained⟩ := hchained
          have hsome : marker = page.nextMarker := by
            rw [hmarker, marker_readXmlNode _ hnotLast, XmlNode.nextMarker,
              List.getLast?_eq_some_getLast hnext]
            rfl
          subst hsome
          have hlimit : fileLimit (-1) = 999999 := rfl
          have hmore : PageReader.more (-1)
              ⟨r.directory ++ pageEntries (listPrefix pre) [page], page.nextMarker,
                r.nFiles + (pageEntries (listPrefix pre) [page]).length⟩ := by
            refine ⟨?_, ?_⟩
            · change page.nextMarker ≠ none
              rw [XmlNode.nextMarker, List.getLast?_eq_some_getLast hnext]
              exact Option.some_ne_none _
            · change r.nFiles + (pageEntries (listPrefix pre) [page]).length ≤ fileLimit (-1)
              rw [pageEntries_cons, List.length_append] at hcount
              omega
          rw [pageEntries_cons, List.length_append, Nat.cast_add, ← Int.add_assoc] at hcount
          have hall := ih hchained (fun p hp => hstarts p (List.mem_cons_of_mem _ hp))
            (i := i + 1) (r := ⟨r.directory ++ pageEntries (listPrefix pre) [page],
              page.nextMarker, r.nFiles + (pageEntries (listPrefix pre) [page]).length⟩)
            hrest hcount
          rw [if_pos hmore, hall, pageEntries_cons (listPrefix pre) page (next :: pages),
            ← List.append_assoc, List.length_append, Nat.cast_add, ← Int.add_assoc]
          rfl

/-! ### S3ReadDir -/

/-- The counter is the number of names. -/
def PageReader.Counted (r : PageReader) : Prop := r.nFiles = r.directory.length

/-- A request keeps the counter right, whatever the response. -/
theorem PageReader.Counted.readPage {r : PageReader} (h : r.Counted) (pre : Bytes)
    (response : ListResponse) : (AwsS3fs.readPage pre response r).2.Counted := by
  rw [AwsS3fs.readPage]
  split
  · cases response.root with
    | none => exact h
    | some root =>
        obtain ⟨hdirectory, hcount⟩ := directory_readXmlNode (prefixToSkip pre) root r
        rw [Counted] at h ⊢
        change (readXmlNode _ root r).nFiles = (readXmlNode _ root r).directory.length
        rw [hdirectory, hcount, h, List.length_append, Nat.cast_add]
  · exact h

/-- The loop keeps the counter right. -/
theorem PageReader.Counted.readAllPages {respond : ℕ → Bytes → ListResponse} {pre : Bytes}
    {maxRead : ℤ} {rounds i : ℕ} {r r' : PageReader} (h : r.Counted) {status : ℤ}
    {queries : List Bytes}
    (hread : AwsS3fs.readAllPages respond pre maxRead rounds i r = some (status, r', queries)) :
    r'.Counted := by
  induction rounds generalizing i r queries with
  | zero => cases hread
  | succ rounds ih =>
      have hpage := h.readPage pre (respond i (listQuery (queryBase pre maxRead) r.marker))
      simp only [AwsS3fs.readAllPages] at hread
      split at hread
      · obtain ⟨⟨status', r'', queries'⟩, hrest, heq⟩ := Option.map_eq_some_iff.1 hread
        obtain ⟨rfl, rfl, -⟩ := heq
        exact ih hpage hrest
      · obtain ⟨-, rfl, -⟩ := Option.some.inj hread
        exact hpage

/-- A loop that has ended does not need more rounds. -/
theorem readAllPages_succ {respond : ℕ → Bytes → ListResponse} {pre : Bytes} {maxRead : ℤ}
    {rounds i : ℕ} {r : PageReader} {result : ℤ × PageReader × List Bytes}
    (h : readAllPages respond pre maxRead rounds i r = some result) :
    readAllPages respond pre maxRead (rounds + 1) i r = some result := by
  induction rounds generalizing i r result with
  | zero => cases h
  | succ rounds ih =>
      rw [readAllPages] at h ⊢
      split at h
      · next hmore =>
        obtain ⟨rest, hrest, rfl⟩ := Option.map_eq_some_iff.1 h
        rw [if_pos hmore, ih hrest]
        rfl
      · next hmore => rw [if_neg hmore, h]

/-- `S3ReadDir` returns, after any number of rounds. -/
def Returns (respond : ℕ → Bytes → ListResponse) (cache : DirectoryCache) (dirname : Bytes)
    (maxRead : ℤ) (result : ReadDirResult) (queries : List Bytes) : Prop :=
  ∃ rounds, s3ReadDirPages respond cache dirname maxRead rounds = some (result, queries)

/-- **`S3ReadDir` for a directory that is not in the cache**: the names go there, whatever the
status. -/
theorem s3ReadDirPages_eq {cache : DirectoryCache} {dirname : Bytes}
    (hcache : cachedName dirname ∉ cache.dirnames) (respond : ℕ → Bytes → ListResponse)
    (maxRead : ℤ) (rounds : ℕ) :
    s3ReadDirPages respond cache dirname maxRead rounds =
      (readAllPages respond (readDirPrefix dirname) maxRead rounds 0 ⟨[], none, 0⟩).map fun read =>
        (⟨read.1, dirArray read.2.1.directory, fileCounter read.2.1.directory,
          cache.insertInDirectoryCache (cachedName dirname) (fileCounter read.2.1.directory)
            (dirArray read.2.1.directory)⟩, read.2.2) := by
  have hlookup : cache.lookupInDirectoryCache (47 :: readDirPrefix dirname) = (none, cache) :=
    lookup_of_notMem hcache
  simp only [s3ReadDirPages, hlookup]
  cases hread : readAllPages respond (readDirPrefix dirname) maxRead rounds 0 ⟨[], none, 0⟩ with
  | none => rfl
  | some read =>
      obtain ⟨status, r, queries⟩ := read
      have hcounted : r.nFiles = r.directory.length :=
        PageReader.Counted.readAllPages (rfl : PageReader.Counted ⟨[], none, 0⟩) hread
      simp only [Option.map_some, hcounted]
      rfl

/-- `S3ReadDir` returns at most one result. -/
theorem Returns.unique {respond : ℕ → Bytes → ListResponse} {cache : DirectoryCache}
    {dirname : Bytes} {maxRead : ℤ} (hcache : cachedName dirname ∉ cache.dirnames)
    {result result' : ReadDirResult} {queries queries' : List Bytes}
    (h : Returns respond cache dirname maxRead result queries)
    (h' : Returns respond cache dirname maxRead result' queries') :
    (result, queries) = (result', queries') := by
  have hstays : ∀ {rounds n : ℕ} {read : ℤ × PageReader × List Bytes},
      readAllPages respond (readDirPrefix dirname) maxRead rounds 0 ⟨[], none, 0⟩ = some read →
      readAllPages respond (readDirPrefix dirname) maxRead (rounds + n) 0 ⟨[], none, 0⟩
        = some read := by
    intro rounds n read hread
    induction n with
    | zero => exact hread
    | succ n ih => exact readAllPages_succ ih
  obtain ⟨rounds, h⟩ := h
  obtain ⟨rounds', h'⟩ := h'
  rw [s3ReadDirPages_eq hcache] at h h'
  obtain ⟨read, hread, heq⟩ := Option.map_eq_some_iff.1 h
  obtain ⟨read', hread', heq'⟩ := Option.map_eq_some_iff.1 h'
  have hsame : some read = some read' := by
    rw [← hstays (n := rounds') hread, ← hstays (n := rounds) hread', Nat.add_comm]
  rw [← heq, ← heq', Option.some.inj hsame]

/-- **The entries of a listing**: without the slashes at their ends, but not without their first
character, and without the secret file. -/
def listedEntries (pre : Bytes) (pages : List XmlNode) : List Bytes :=
  ((pageEntries pre pages).map fun entry =>
    entry.take 1 ++ (entry.drop 1).rdropWhile (· == 47)).filter (· ≠ secretName)

/-- **A listing is complete.**  `S3ReadDir` asks for all pages, each with the marker of the one
before, and returns their entries in order, behind `.` and `..`. -/
theorem s3ReadDirPages_complete {respond : ℕ → Bytes → ListResponse} {cache : DirectoryCache}
    {dirname : Bytes} (hcache : cachedName dirname ∉ cache.dirnames) {pages : List XmlNode}
    (hpages : WellFormedPages (listPrefix (readDirPrefix dirname)) pages)
    (hanswers : Answers respond (queryBase (readDirPrefix dirname) (-1)) pages) :
    ∃ result, Returns respond cache dirname (-1) result
        (pageQueries (queryBase (readDirPrefix dirname) (-1)) pages) ∧
      result.status = 0 ∧
      result.nameArray = ascii "." :: ascii ".." ::
        listedEntries (listPrefix (readDirPrefix dirname)) pages ∧
      result.nFiles = result.nameArray.length := by
  have hread := readAllPages_of_chained hpages.chained hpages.starts (i := 0)
    (r := ⟨[], none, 0⟩) hanswers ((Int.zero_add _).trans_le (by exact_mod_cast hpages.count_le))
  have hresult := s3ReadDirPages_eq hcache respond (-1) pages.length
  rw [hread, Option.map_some] at hresult
  refine ⟨_, ⟨pages.length, hresult⟩, rfl, ?_, fileCounter_eq _⟩
  rw [listedEntries, ← funext stripTrailingSlash_eq]
  rfl

/-- The page of a directory, with what it says about its end, a marker and an entry. -/
def entryPage (pre truncated marker entry : Bytes) : XmlNode :=
  .element (ascii "ListBucketResult")
    (.element (ascii "Prefix") (.text pre .null)
      (.element (ascii "NextMarker") (.text marker .null)
        (.element (ascii "IsTruncated") (.text truncated .null)
          (.element (ascii "Contents") (.element (ascii "Key") (.text entry .null) .null) .null))))
    .null

/-- Two pages of `/d`, with the entries `d/a` and `d/b`. -/
def twoPages : List XmlNode :=
  [entryPage (ascii "d/") (ascii "true") (ascii "d/a") (ascii "d/a"),
    entryPage (ascii "d/") (ascii "false") [] (ascii "d/b")]

/-- The server with these pages. -/
def serverOf (pages : List XmlNode) : ℕ → Bytes → ListResponse := fun i _ => ⟨0, pages[i]?⟩

/-- Both pages are read. -/
theorem s3ReadDirPages_complete_twoPages :
    ∃ result, Returns (serverOf twoPages) [none, none] (ascii "/d") (-1) result
        [ascii "/?delimiter=/&prefix=d/", ascii "/?delimiter=/&prefix=d/&marker=d%2Fa"] ∧
      result.status = 0 ∧
      result.nameArray = [ascii ".", ascii "..", ascii "a", ascii "b"] ∧
      result.nFiles = result.nameArray.length := by
  have hpages : WellFormedPages (listPrefix (readDirPrefix (ascii "/d"))) twoPages :=
    { chained := ⟨by decide +kernel, by decide +kernel, by decide +kernel, by decide +kernel⟩
      starts := by decide +kernel
      count_le := by decide +kernel }
  have hcache : cachedName (ascii "/d") ∉ DirectoryCache.dirnames [none, none] := List.not_mem_nil
  have hanswers : Answers (serverOf twoPages) (queryBase (readDirPrefix (ascii "/d")) (-1))
      twoPages := ⟨rfl, rfl, trivial⟩
  have hcomplete := s3ReadDirPages_complete hcache hpages hanswers
  have hqueries : pageQueries (queryBase (readDirPrefix (ascii "/d")) (-1)) twoPages =
      [ascii "/?delimiter=/&prefix=d/", ascii "/?delimiter=/&prefix=d/&marker=d%2Fa"] := by
    decide +kernel
  have hentries : listedEntries (listPrefix (readDirPrefix (ascii "/d"))) twoPages =
      [ascii "a", ascii "b"] := by
    decide +kernel
  rwa [hqueries, hentries] at hcomplete

/-- A page of `/d` with the entry `d//`. -/
def slashPage : XmlNode := entryPage (ascii "d/") (ascii "false") [] (ascii "d//")

/-- **A slash remains**: an entry of slashes only is returned as one slash, not as nothing. -/
theorem not_s3ReadDirPages_complete :
    cachedName (ascii "/d") ∉ DirectoryCache.dirnames [none, none] ∧
      WellFormedPages (listPrefix (readDirPrefix (ascii "/d"))) [slashPage] ∧
      Answers (serverOf [slashPage]) (queryBase (readDirPrefix (ascii "/d")) (-1)) [slashPage] ∧
      ∀ result queries,
        Returns (serverOf [slashPage]) [none, none] (ascii "/d") (-1) result queries →
        result.nameArray ≠ ascii "." :: ascii ".." ::
          ((pageEntries (listPrefix (readDirPrefix (ascii "/d"))) [slashPage]).map
            (List.rdropWhile (· == 47))).filter (· ≠ secretName) := by
  have hcache : cachedName (ascii "/d") ∉ DirectoryCache.dirnames [none, none] := List.not_mem_nil
  refine ⟨hcache, ⟨⟨by decide +kernel, by decide +kernel⟩, by decide +kernel, by decide +kernel⟩,
    ⟨rfl, trivial⟩, fun result queries h => ?_⟩
  have hread := s3ReadDirPages_eq hcache (serverOf [slashPage]) (-1) 1
  have hone : ((readAllPages (serverOf [slashPage]) (readDirPrefix (ascii "/d")) (-1) 1 0
      ⟨[], none, 0⟩).map fun read => dirArray read.2.1.directory) =
        some [ascii ".", ascii "..", ascii "/"] := by
    decide +kernel
  obtain ⟨read, hsome, harray⟩ := Option.map_eq_some_iff.1 hone
  rw [hsome, Option.map_some, harray] at hread
  have hsame := (Prod.mk.inj (h.unique hcache ⟨1, hread⟩)).1
  rw [hsame]
  change [ascii ".", ascii "..", ascii "/"] ≠ _
  decide +kernel

/-! ### The documents of a bucket -/

/-- An element with a text. -/
def textElement (name content : Bytes) (next : XmlNode) : XmlNode :=
  .element name (.text content .null) next

/-- One element around each of some names. -/
def nameElements (outer inner : Bytes) (names : List Bytes) (next : XmlNode) : XmlNode :=
  names.foldr (fun name next => .element outer (textElement inner name .null) next) next

/-- The document in which S3 sends a page. -/
def listDocument (pre : Bytes) (page : Page UInt8) : XmlNode :=
  .element (ascii "ListBucketResult")
    (textElement (ascii "Prefix") pre
      (textElement (ascii "NextMarker") (page.nextMarker.getD [])
        (textElement (ascii "IsTruncated")
          (ascii (if page.nextMarker.isSome then "true" else "false"))
          (nameElements (ascii "Contents") (ascii "Key") page.keys
            (nameElements (ascii "CommonPrefixes") (ascii "Prefix") page.commonPrefixes .null)))))
    .null

@[simp]
theorem elements_textElement (name content : Bytes) (next : XmlNode) :
    (textElement name content next).elements = (name, content) :: next.elements := by
  rw [textElement, XmlNode.elements, xmlNodeGetContent, XmlNode.content, XmlNode.content,
    List.append_nil]
  rfl

/-- A property of elements that those around the names do not have selects the names. -/
theorem filter_elements_nameElements {p : Bytes × Bytes → Bool} {outer inner : Bytes}
    (houter : ∀ content, p (outer, content) = false) (names : List Bytes) (next : XmlNode) :
    (nameElements outer inner names next).elements.filter p =
      (names.map fun name => (inner, name)).filter p ++ next.elements.filter p := by
  induction names with
  | nil => rfl
  | cons name names ih =>
      rw [nameElements, List.foldr_cons, ← nameElements, XmlNode.elements, elements_textElement,
        XmlNode.elements, List.filter_cons, houter, if_neg Bool.false_ne_true,
        List.singleton_append,
        List.map_cons, List.filter_cons, List.filter_cons, ih]
      split <;> rfl

/-- What selects neither the document nor what is around a name selects among these elements. -/
theorem filter_elements_listDocument {p : Bytes × Bytes → Bool}
    (hlist : ∀ content, p (ascii "ListBucketResult", content) = false)
    (hcontents : ∀ content, p (ascii "Contents", content) = false)
    (hcommon : ∀ content, p (ascii "CommonPrefixes", content) = false) (pre : Bytes)
    (page : Page UInt8) :
    (listDocument pre page).elements.filter p =
      ([(ascii "Prefix", pre), (ascii "NextMarker", page.nextMarker.getD []),
          (ascii "IsTruncated", ascii (if page.nextMarker.isSome then "true" else "false"))] ++
        (page.keys.map fun name => (ascii "Key", name)) ++
          page.commonPrefixes.map fun name => (ascii "Prefix", name)).filter p := by
  have hnames : (nameElements (ascii "Contents") (ascii "Key") page.keys
      (nameElements (ascii "CommonPrefixes") (ascii "Prefix") page.commonPrefixes
        .null)).elements.filter p = (page.keys.map fun name => (ascii "Key", name)).filter p ++
          (page.commonPrefixes.map fun name => (ascii "Prefix", name)).filter p := by
    rw [filter_elements_nameElements hcontents, filter_elements_nameElements hcommon,
      XmlNode.elements, List.filter_nil, List.append_nil]
  rw [listDocument, XmlNode.elements, List.filter_cons, hlist, if_neg Bool.false_ne_true,
    List.filter_append, elements_textElement, elements_textElement, elements_textElement,
    XmlNode.elements, List.filter_nil, List.append_nil, List.append_assoc, List.filter_append,
    List.filter_append, ← hnames, ← List.filter_append]
  rfl

/-- **The names in the document** of a page. -/
theorem names_listDocument (pre : Bytes) (page : Page UInt8) :
    (listDocument pre page).names = nodeValues pre page := by
  have houter : ∀ name ∈ [ascii "ListBucketResult", ascii "Contents", ascii "CommonPrefixes"],
      decide (name = ascii "Key" ∨ name = ascii "Prefix") = false := by decide +kernel
  have hinner : ¬ (ascii "NextMarker" = ascii "Key" ∨ ascii "NextMarker" = ascii "Prefix") ∧
      ¬ (ascii "IsTruncated" = ascii "Key" ∨ ascii "IsTruncated" = ascii "Prefix") := by
    decide +kernel
  rw [XmlNode.names, filter_elements_listDocument (fun _ => houter _ (by simp))
    (fun _ => houter _ (by simp)) (fun _ => houter _ (by simp))]
  simp [hinner, nodeValues, List.filter_map, Function.comp_def]

/-- The marker in the document of a page. -/
theorem nextMarkers_listDocument (pre : Bytes) {page : Page UInt8}
    (h : page.nextMarker ≠ some []) :
    (listDocument pre page).nextMarkers = page.nextMarker.toList := by
  have houter : ∀ name ∈ [ascii "ListBucketResult", ascii "Contents", ascii "CommonPrefixes",
      ascii "Prefix", ascii "IsTruncated", ascii "Key"], name ≠ ascii "NextMarker" := by
    decide +kernel
  rw [XmlNode.nextMarkers, filter_elements_listDocument (fun _ => by simp [houter])
    (fun _ => by simp [houter]) (fun _ => by simp [houter])]
  cases hmarker : page.nextMarker with
  | none => simp [houter, List.filter_map, Function.comp_def]
  | some marker =>
      have hne : marker ≠ [] := fun hnil => h (hmarker.trans (congrArg some hnil))
      simp [houter, hne, List.filter_map, Function.comp_def]

/-- A document says that it is the last one just if its page has no marker. -/
theorem isLast_listDocument_iff (pre : Bytes) (page : Page UInt8) :
    (listDocument pre page).IsLast ↔ page.nextMarker = none := by
  have houter : ∀ name ∈ [ascii "ListBucketResult", ascii "Contents", ascii "CommonPrefixes",
      ascii "Prefix", ascii "NextMarker", ascii "Key"], name ≠ ascii "IsTruncated" := by
    decide +kernel
  have hfilter := filter_elements_listDocument (p := fun e => e.1 == ascii "IsTruncated")
    (fun _ => by simp [houter]) (fun _ => by simp [houter]) (fun _ => by simp [houter]) pre page
  have hmem : (listDocument pre page).IsLast ↔ (ascii "IsTruncated", ascii "false") ∈
      (listDocument pre page).elements.filter fun e => e.1 == ascii "IsTruncated" := by
    rw [XmlNode.IsLast, List.mem_filter, beq_self_eq_true, and_iff_left rfl]
  have hne : ascii "false" ≠ ascii "true" := by decide +kernel
  rw [hmem, hfilter]
  cases page.nextMarker with
  | none => simp [houter]
  | some marker => simp [houter, hne]

/-- **What is read from the document** of a page. -/
theorem readPage_listDocument (pre : Bytes) {page : Page UInt8} (h : page.nextMarker ≠ some [])
    (r : PageReader) :
    (readPage pre ⟨0, some (listDocument (listPrefix pre) page)⟩ r).1 = 0 ∧
      (readPage pre ⟨0, some (listDocument (listPrefix pre) page)⟩ r).2.directory =
        r.directory ++ readXmlDirectory (listPrefix pre).length (nodeValues (listPrefix pre) page) ∧
      (readPage pre ⟨0, some (listDocument (listPrefix pre) page)⟩ r).2.marker
        = page.nextMarker := by
  refine ⟨rfl, ?_, ?_⟩
  · rw [← names_listDocument, ← prefixToSkip_eq]
    exact (directory_readXmlNode (prefixToSkip pre) _ r).1
  · have hmarkers := nextMarkers_listDocument (listPrefix pre) h
    change (readXmlNode (prefixToSkip pre) _ r).marker = _
    cases hmarker : page.nextMarker with
    | none =>
        rw [hmarker] at hmarkers
        exact marker_readXmlNode_of_isLast _ ((isLast_listDocument_iff _ _).2 hmarker) hmarkers r
    | some marker =>
        have hnotLast : ¬ (listDocument (listPrefix pre) page).IsLast := by
          rw [isLast_listDocument_iff, hmarker]
          exact Option.some_ne_none marker
        rw [marker_readXmlNode _ hnotLast, hmarkers, hmarker]
        rfl

/-- **The loop reads what is in the bucket**: on the documents of the pages it does what
`readPages` does on the pages. -/
theorem directory_readAllPages {respond : ℕ → Bytes → ListResponse} {pre : Bytes} {maxRead : ℤ}
    {bucket : List Bytes}
    (hrespond : ∀ i marker, respond i (listQuery (queryBase pre maxRead) marker) =
      ⟨0, some (listDocument (listPrefix pre)
        (listPage 47 keyOrder bucket (listPrefix pre) marker (pageSize maxRead)))⟩)
    (hmarker : ∀ marker,
      (listPage 47 keyOrder bucket (listPrefix pre) marker (pageSize maxRead)).nextMarker ≠ some [])
    {rounds i : ℕ} {r : PageReader} (hcounted : r.Counted) {read : ℤ × PageReader × List Bytes}
    (hread : readAllPages respond pre maxRead rounds i r = some read) :
    read.1 = 0 ∧ read.2.1.directory = readPages bucket (listPrefix pre) (pageSize maxRead)
      (fileLimit maxRead) rounds r.marker r.directory := by
  induction rounds generalizing i r read with
  | zero => cases hread
  | succ rounds ih =>
      obtain ⟨hstatus, hdirectory, hnext⟩ := readPage_listDocument pre (hmarker r.marker) r
      have hcounted' := hcounted.readPage pre
        (respond i (listQuery (queryBase pre maxRead) r.marker))
      simp only [readAllPages] at hread
      rw [hrespond] at hread hcounted'
      rw [PageReader.Counted] at hcounted'
      generalize readPage pre ⟨0, some (listDocument (listPrefix pre) (listPage 47 keyOrder bucket
        (listPrefix pre) r.marker (pageSize maxRead)))⟩ r = page
        at hread hstatus hdirectory hnext hcounted'
      obtain ⟨status, directory, marker, nFiles⟩ := page
      simp only at hstatus hdirectory hnext hcounted'
      rw [readPages, ← hdirectory, ← hnext]
      by_cases hmore : PageReader.more maxRead ⟨directory, marker, nFiles⟩
      · have hgoes : marker.isSome ∧ (directory.length : ℤ) ≤ fileLimit maxRead :=
          ⟨Option.isSome_iff_ne_none.2 hmore.1, hcounted' ▸ hmore.2⟩
        rw [if_pos hmore] at hread
        obtain ⟨rest, hrest, rfl⟩ := Option.map_eq_some_iff.1 hread
        rw [if_pos hgoes]
        have hall := ih (r := ⟨directory, marker, nFiles⟩) hcounted' hrest
        exact hall
      · have hends : ¬ (marker.isSome ∧ (directory.length : ℤ) ≤ fileLimit maxRead) :=
          fun h => hmore ⟨Option.isSome_iff_ne_none.1 h.1, hcounted' ▸ h.2⟩
        rw [if_neg hmore] at hread
        obtain rfl := Option.some.inj hread
        rw [if_neg hends]
        exact ⟨hstatus, rfl⟩

end AwsS3fs
