/-
**Object stores that list their keys like directories.**

An object store has no directories: it keeps objects under keys.  A listing with a prefix and a
delimiter looks like one, because it takes every key with the prefix only up to and including the
first delimiter behind it, and lists each such name once and in order.  A long listing comes in
pages, and a page says with which name the next one goes on.

Main definitions:

* `ObjectStore.put`, `ObjectStore.delete` — what the requests for one key do to the keys;
* `ObjectStore.listObjects` — the names in a listing;
* `ObjectStore.listPage` — a page of it;
* `ObjectStore.Adds`, `ObjectStore.Removes` — when a request changes a listing.

Main results:

* `ObjectStore.afterMarker_getLast?_take` — **a marker stands for the names up to it**;
* `ObjectStore.perm_listPage`, `ObjectStore.nextMarker_listPage` — what is on a page;
* `ObjectStore.perm_filter_put`, `ObjectStore.perm_filter_delete` — **which requests leave a listing
  as it is**.
-/

import Mathlib.Data.List.Dedup
import Mathlib.Data.List.Sort
import Mathlib.Data.List.TakeWhile

set_option relaxedAutoImplicit false
set_option autoImplicit false

namespace ObjectStore

variable {α : Type*} [DecidableEq α]

/-! ### Requests for one key -/

/-- The keys after an object has been stored. -/
def put (keys : List (List α)) (key : List α) : List (List α) :=
  if key ∈ keys then keys else key :: keys

/-- The keys after an object has been deleted. -/
def delete (keys : List (List α)) (key : List α) : List (List α) := keys.filter (· ≠ key)

theorem mem_put {keys : List (List α)} {key k : List α} :
    k ∈ put keys key ↔ k = key ∨ k ∈ keys := by
  rw [put]
  split
  · rename_i h
    exact ⟨.inr, fun hk => hk.elim (fun heq => heq ▸ h) id⟩
  · exact List.mem_cons

theorem mem_delete {keys : List (List α)} {key k : List α} :
    k ∈ delete keys key ↔ k ∈ keys ∧ k ≠ key := by
  simp [delete]

/-! ### Listings -/

section Listing

variable (delimiter : α) (r : List α → List α → Prop) [DecidableRel r]

/-- The name under which a key with a prefix is listed. -/
def listName (pre key : List α) : List α :=
  let rest := key.drop pre.length
  pre ++ rest.takeWhile (· ≠ delimiter) ++ (rest.dropWhile (· ≠ delimiter)).take 1

/-- A name in a listing that stands for all keys that start with it. -/
def isCommonPrefix (pre name : List α) : Bool := (name.drop pre.length).contains delimiter

/-- The names in a listing. -/
def listObjects (keys : List (List α)) (pre : List α) : List (List α) :=
  (((keys.filter (pre.isPrefixOf ·)).map (listName delimiter pre)).dedup).insertionSort r

/-- The names with which a listing goes on after a marker. -/
def afterMarker (marker : Option (List α)) (names : List (List α)) : List (List α) :=
  match marker with
  | none => names
  | some marker => names.filter fun name => ¬ r name marker

/-- A page of a listing. -/
structure Page (α : Type*) where
  keys : List (List α)
  commonPrefixes : List (List α)
  nextMarker : Option (List α)
  deriving DecidableEq, Repr

/-- A page of at most `n` names, and a marker if there are more. -/
def listPage (keys : List (List α)) (pre : List α) (marker : Option (List α)) (n : ℕ) : Page α :=
  let names := afterMarker r marker (listObjects delimiter r keys pre)
  { keys := (names.take n).filter (!isCommonPrefix delimiter pre ·)
    commonPrefixes := (names.take n).filter (isCommonPrefix delimiter pre ·)
    nextMarker := if names.length ≤ n then none else (names.take n).getLast? }

variable {delimiter r} {keys : List (List α)} {pre key name : List α}

theorem prefix_listName (pre key : List α) : pre <+: listName delimiter pre key := by
  rw [listName, List.append_assoc]
  exact List.prefix_append _ _

/-- **What a name looks like** behind the prefix. -/
theorem exists_listName_eq (pre key : List α) :
    ∃ child, delimiter ∉ child ∧ (listName delimiter pre key = pre ++ child ∨
      listName delimiter pre key = pre ++ (child ++ [delimiter])) := by
  refine ⟨(key.drop pre.length).takeWhile (· ≠ delimiter), fun h => ?_, ?_⟩
  · simpa using List.mem_takeWhile_imp h
  · rw [listName]
    cases hrest : (key.drop pre.length).dropWhile (· ≠ delimiter) with
    | nil => exact .inl (by simp)
    | cons ch rest =>
        have hhead := List.head?_dropWhile_not (· ≠ delimiter) (key.drop pre.length)
        rw [hrest] at hhead
        obtain rfl : ch = delimiter := by simpa using hhead
        exact .inr (by simp)

theorem mem_listObjects :
    name ∈ listObjects delimiter r keys pre ↔
      ∃ k ∈ keys, pre <+: k ∧ listName delimiter pre k = name := by
  simp [listObjects, List.mem_insertionSort, and_assoc]

theorem prefix_of_mem_listObjects (h : name ∈ listObjects delimiter r keys pre) : pre <+: name := by
  obtain ⟨k, -, -, rfl⟩ := mem_listObjects.1 h
  exact prefix_listName pre k

theorem nodup_listObjects : (listObjects delimiter r keys pre).Nodup :=
  (List.perm_insertionSort r _).nodup_iff.2 (List.nodup_dedup _)

theorem pairwise_listObjects [Std.Total r] [IsTrans (List α) r] :
    (listObjects delimiter r keys pre).Pairwise r :=
  List.pairwise_insertionSort r _

theorem length_listObjects_le : (listObjects delimiter r keys pre).length ≤ keys.length := by
  rw [listObjects, (List.perm_insertionSort r _).length_eq]
  refine (List.dedup_sublist _).length_le.trans ?_
  rw [List.length_map]
  exact List.length_filter_le _ _

/-! ### Pages -/

section Pages

variable [Std.Total r] [IsTrans (List α) r] [Std.Antisymm r]

/-- **A marker stands for the names up to it.** -/
theorem afterMarker_getLast?_take (keys : List (List α)) (pre : List α) (k : ℕ) :
    afterMarker r ((listObjects delimiter r keys pre).take k).getLast?
      (listObjects delimiter r keys pre) = (listObjects delimiter r keys pre).drop k := by
  have hsorted : (listObjects delimiter r keys pre).Pairwise r := pairwise_listObjects
  have hnodup : (listObjects delimiter r keys pre).Nodup := nodup_listObjects
  generalize listObjects delimiter r keys pre = names at hsorted hnodup
  obtain hnil | hne := eq_or_ne (names.take k) []
  · rw [hnil]
    rcases List.take_eq_nil_iff.1 hnil with rfl | rfl
    · rfl
    · rw [List.drop_nil]
      rfl
  · have hsplit := List.take_append_drop k names
    obtain ⟨marker, hlast⟩ : ∃ marker, (names.take k).getLast? = some marker :=
      ⟨_, List.getLast?_eq_some_getLast hne⟩
    obtain ⟨before, hbefore⟩ := List.getLast?_eq_some_iff.1 hlast
    rw [hlast, afterMarker]
    rw [hbefore] at hsplit
    rw [← hsplit] at hsorted hnodup
    obtain ⟨hupto, -, hpast⟩ := List.pairwise_append.1 hsorted
    have hdisjoint := (List.nodup_append.1 hnodup).2.2
    have hmarker : marker ∈ before ++ [marker] := List.mem_append_right _ List.mem_cons_self
    -- what comes up to the marker is dropped, what comes after it stays
    conv_lhs => rw [← hsplit]
    rw [List.filter_append, List.filter_eq_nil_iff.2, List.nil_append, List.filter_eq_self.2]
    · intro x hx
      have hne : marker ≠ x := hdisjoint marker hmarker x hx
      simpa using fun hr => hne (Std.Antisymm.antisymm _ _ (hpast marker hmarker x hx) hr)
    · intro x hx
      rcases List.mem_append.1 hx with hx | hx
      · simpa using (List.pairwise_append.1 hupto).2.2 x hx marker List.mem_cons_self
      · obtain rfl := List.mem_singleton.1 hx
        simpa using (Std.Total.total (r := r) x x).elim id id

/-- **What is on a page.** -/
theorem perm_listPage (keys : List (List α)) (pre : List α) (k n : ℕ) :
    let names := listObjects delimiter r keys pre
    let page := listPage delimiter r keys pre (names.take k).getLast? n
    (page.keys ++ page.commonPrefixes).Perm ((names.drop k).take n) := by
  simp only [listPage, afterMarker_getLast?_take]
  refine List.perm_append_comm.trans ?_
  exact List.filter_append_perm _ _

/-- **How a listing goes on.** -/
theorem nextMarker_listPage (keys : List (List α)) (pre : List α) (k : ℕ) {n : ℕ} (hn : 0 < n) :
    let names := listObjects delimiter r keys pre
    (listPage delimiter r keys pre (names.take k).getLast? n).nextMarker =
      if names.length ≤ k + n then none else (names.take (k + n)).getLast? := by
  simp only [listPage, afterMarker_getLast?_take, List.length_drop]
  generalize listObjects delimiter r keys pre = names
  by_cases hle : names.length ≤ k + n
  · rw [if_pos hle, if_pos (by omega)]
  · rw [if_neg hle, if_neg (by omega), List.take_add, List.getLast?_append_of_ne_nil]
    intro hnil
    rcases List.take_eq_nil_iff.1 hnil with rfl | hdrop
    · omega
    · have := List.drop_eq_nil_iff.1 hdrop
      omega

/-- The object whose key is the prefix comes first. -/
theorem count_take_listObjects (hr : ∀ name, pre <+: name → r pre name) {j : ℕ} (hj : 0 < j) :
    ((listObjects delimiter r keys pre).take j).count pre =
      (listObjects delimiter r keys pre).count pre := by
  have hsorted : (listObjects delimiter r keys pre).Pairwise r := pairwise_listObjects
  have hnodup : (listObjects delimiter r keys pre).Nodup := nodup_listObjects
  have hstarts : ∀ name ∈ listObjects delimiter r keys pre, pre <+: name :=
    fun _ => prefix_of_mem_listObjects
  generalize listObjects delimiter r keys pre = names at hsorted hnodup hstarts
  obtain ⟨j, rfl⟩ := Nat.exists_eq_succ_of_ne_zero hj.ne'
  cases names with
  | nil => rfl
  | cons first names =>
      have hnot : pre ∉ names := by
        intro hmem
        have hfirst : first = pre := Std.Antisymm.antisymm (r := r) _ _
          ((List.pairwise_cons.1 hsorted).1 pre hmem) (hr first (hstarts first List.mem_cons_self))
        exact (List.nodup_cons.1 hnodup).1 (hfirst ▸ hmem)
      rw [List.take_succ_cons, List.count_cons, List.count_cons, List.count_eq_zero_of_not_mem hnot,
        List.count_eq_zero_of_not_mem fun h => hnot (List.mem_of_mem_take h)]

end Pages

/-! ### What requests do to listings -/

variable (delimiter) in
/-- A new object adds a name to a listing. -/
def Adds (keys : List (List α)) (pre key : List α) : Prop :=
  pre <+: key ∧ ∀ k ∈ keys, pre <+: k → listName delimiter pre k ≠ listName delimiter pre key

variable (delimiter) in
/-- The deletion of an object removes a name from a listing. -/
def Removes (keys : List (List α)) (pre key : List α) : Prop :=
  key ∈ keys ∧ pre <+: key ∧
    ∀ k ∈ keys, pre <+: k → listName delimiter pre k = listName delimiter pre key → k = key

instance : Decidable (Adds delimiter keys pre key) :=
  inferInstanceAs (Decidable (_ ∧ _))

instance : Decidable (Removes delimiter keys pre key) :=
  inferInstanceAs (Decidable (_ ∧ _ ∧ _))

theorem mem_listObjects_put :
    name ∈ listObjects delimiter r (put keys key) pre ↔
      name ∈ listObjects delimiter r keys pre ∨
        pre <+: key ∧ name = listName delimiter pre key := by
  simp only [mem_listObjects, mem_put]
  constructor
  · rintro ⟨k, rfl | hk, hpre, rfl⟩
    · exact .inr ⟨hpre, rfl⟩
    · exact .inl ⟨k, hk, hpre, rfl⟩
  · rintro (⟨k, hk, hpre, rfl⟩ | ⟨hpre, rfl⟩)
    · exact ⟨k, .inr hk, hpre, rfl⟩
    · exact ⟨key, .inl rfl, hpre, rfl⟩

theorem mem_of_mem_listObjects_delete (h : name ∈ listObjects delimiter r (delete keys key) pre) :
    name ∈ listObjects delimiter r keys pre := by
  obtain ⟨k, hk, hpre, rfl⟩ := mem_listObjects.1 h
  exact mem_listObjects.2 ⟨k, (mem_delete.1 hk).1, hpre, rfl⟩

theorem perm_filter_of_mem_iff {keys' : List (List α)} {visible : List α → Bool}
    (h : ∀ name, visible name = true →
      (name ∈ listObjects delimiter r keys' pre ↔ name ∈ listObjects delimiter r keys pre)) :
    ((listObjects delimiter r keys' pre).filter visible).Perm
      ((listObjects delimiter r keys pre).filter visible) := by
  refine (List.perm_ext_iff_of_nodup (nodup_listObjects.filter _) (nodup_listObjects.filter _)).2 ?_
  intro name
  simp only [List.mem_filter]
  exact and_congr_left (h name)

/-- **A new object leaves a listing as it is** if it adds no name or none that is looked at. -/
theorem perm_filter_put {visible : List α → Bool}
    (h : Adds delimiter keys pre key → visible (listName delimiter pre key) = false) :
    ((listObjects delimiter r (put keys key) pre).filter visible).Perm
      ((listObjects delimiter r keys pre).filter visible) := by
  refine perm_filter_of_mem_iff fun name hvisible => ?_
  rw [mem_listObjects_put]
  refine or_iff_left_of_imp ?_
  rintro ⟨hpre, rfl⟩
  by_contra hnot
  refine Bool.false_ne_true ((h ⟨hpre, fun k hk hk' heq => hnot ?_⟩).symm.trans hvisible)
  exact mem_listObjects.2 ⟨k, hk, hk', heq⟩

/-- **A deletion leaves a listing as it is** if it removes no name or none that is looked at. -/
theorem perm_filter_delete {visible : List α → Bool}
    (h : Removes delimiter keys pre key → visible (listName delimiter pre key) = false) :
    ((listObjects delimiter r (delete keys key) pre).filter visible).Perm
      ((listObjects delimiter r keys pre).filter visible) := by
  refine perm_filter_of_mem_iff fun name hvisible => ⟨mem_of_mem_listObjects_delete, fun hmem => ?_⟩
  obtain ⟨k, hk, hpre, rfl⟩ := mem_listObjects.1 hmem
  obtain hne | rfl := ne_or_eq k key
  · exact mem_listObjects.2 ⟨k, mem_delete.2 ⟨hk, hne⟩, hpre, rfl⟩
  · by_contra hnot
    refine Bool.false_ne_true ((h ⟨hk, hpre, fun k' hk' hpre' heq => ?_⟩).symm.trans hvisible)
    by_contra hne
    exact hnot (mem_listObjects.2 ⟨k', mem_delete.2 ⟨hk', hne⟩, hpre', heq⟩)

end Listing

end ObjectStore
