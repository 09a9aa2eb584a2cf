/-
**Allocations.**

A program allocates memory, reads it and frees it.  An allocation is known by its number, which no
other allocation gets afterwards, so that a pointer to memory that has been freed is never mistaken
for a pointer to memory that is in use.

Main definitions:

* `Allocations.Heap` — what has been allocated, and what of it has been freed;
* `Allocations.Heap.allocate`, `Allocations.Heap.read`, `Allocations.Heap.write`,
  `Allocations.Heap.free` — the operations;
* `Allocations.freeUnset` — `free` of a variable that has not been set;
* `Allocations.Holds`, `Allocations.NoLeak` — a list of allocations that are in use, and the list of
  all of them.

Main results:

* `Allocations.live_allocate` — what is allocated is in use;
* `Allocations.exists_free_eq_ok`, `Allocations.live_of_free` — **what is in use can be freed, and
  nothing else**;
* `Allocations.exists_read_eq_ok` — what is in use can be read;
* `Allocations.Holds.allocate`, `Allocations.exists_write_eq_ok`,
  `Allocations.Holds.exists_free_eq_ok` — **one operation, for who holds the allocations**.
-/

import Mathlib.Data.List.Basic
import Mathlib.Data.List.Nodup

set_option relaxedAutoImplicit false
set_option autoImplicit false

namespace Allocations

variable {τ : Type*}

/-- What has been allocated so far, and the numbers of the allocations that have been freed. -/
structure Heap (τ : Type*) where
  contents : List τ
  freed : List ℕ
  freed_lt : ∀ n ∈ freed, n < contents.length

/-- What an operation on memory that is not in use comes to. -/
inductive HeapFault
  | doubleFree
  | useAfterFree
  deriving DecidableEq

namespace Heap

/-- Nothing has been allocated. -/
def empty : Heap τ := ⟨[], [], by simp⟩

variable (heap : Heap τ)

/-- The allocation is in use. -/
def Live (n : ℕ) : Prop := n < heap.contents.length ∧ n ∉ heap.freed

instance (n : ℕ) : Decidable (heap.Live n) := inferInstanceAs (Decidable (_ ∧ _))

/-- One more allocation, and its number. -/
def allocate (content : τ) : Heap τ × ℕ :=
  ({ contents := heap.contents ++ [content]
     freed := heap.freed
     freed_lt := by
      intro n hn
      rw [List.length_append]
      exact Nat.lt_add_right _ (heap.freed_lt n hn) }, heap.contents.length)

/-- The content of an allocation. -/
def read (n : ℕ) : Except HeapFault τ :=
  if h : heap.Live n then .ok (heap.contents.get ⟨n, h.1⟩) else .error .useAfterFree

/-- The content of an allocation is replaced. -/
def write (n : ℕ) (content : τ) : Except HeapFault (Heap τ) :=
  if heap.Live n then
    .ok { contents := heap.contents.set n content
          freed := heap.freed
          freed_lt := by
            intro m hm
            rw [List.length_set]
            exact heap.freed_lt m hm }
  else .error .useAfterFree

/-- An allocation is freed. -/
def free (n : ℕ) : Except HeapFault (Heap τ) :=
  if h : heap.Live n then
    .ok { heap with
      freed := n :: heap.freed
      freed_lt := by
        intro m hm
        rcases List.mem_cons.1 hm with rfl | hm
        · exact h.1
        · exact heap.freed_lt m hm }
  else .error .doubleFree

end Heap

variable {heap heap' : Heap τ} {n : ℕ}

theorem length_allocate (heap : Heap τ) (content : τ) :
    (heap.allocate content).1.contents.length = heap.contents.length + 1 :=
  List.length_append

/-- What is allocated is in use. -/
theorem live_allocate (heap : Heap τ) (content : τ) :
    (heap.allocate content).1.Live (heap.allocate content).2 := by
  refine ⟨?_, fun hfreed => Nat.lt_irrefl _ (heap.freed_lt _ hfreed)⟩
  rw [length_allocate]
  exact Nat.lt_succ_self _

/-- What is in use can be freed, and is not in use any more. -/
theorem exists_free_eq_ok (h : heap.Live n) :
    ∃ heap', heap.free n = .ok heap' ∧ ¬ heap'.Live n :=
  ⟨_, dif_pos h, fun hlive => hlive.2 List.mem_cons_self⟩

/-- Nothing else can be freed. -/
theorem live_of_free (h : heap.free n = .ok heap') : heap.Live n := by
  by_contra hlive
  rw [Heap.free, dif_neg hlive] at h
  cases h

/-- What is in use can be read. -/
theorem exists_read_eq_ok (h : heap.Live n) : ∃ content, heap.read n = .ok content :=
  ⟨_, dif_pos h⟩

/-- `free` of a variable that has not been set, with what it holds: `NULL` does no harm, and with
anything else there is no telling what happens. -/
def freeUnset (pointer : UInt64) : Option Unit := if pointer = 0 then some () else none

theorem map_freeUnset_eq_some_iff {pointer : UInt64} {α : Type*} {x y : α} :
    ((freeUnset pointer).map fun _ => x) = some y ↔ pointer = 0 ∧ x = y := by
  rw [freeUnset]
  split
  case isTrue h => simp [h]
  case isFalse h => simp [h]

/-! ### Who holds the allocations -/

/-- The allocations in a list are different ones, and in use. -/
structure Holds (heap : Heap τ) (ns : List ℕ) : Prop where
  distinct : ns.Nodup
  live : ∀ n ∈ ns, heap.Live n

/-- Nothing else is in use. -/
def NoLeak (heap : Heap τ) (ns : List ℕ) : Prop := ∀ n, heap.Live n → n ∈ ns

theorem holds_nil (heap : Heap τ) : Holds heap [] := ⟨List.nodup_nil, by simp⟩

theorem noLeak_empty (ns : List ℕ) : NoLeak (Heap.empty : Heap τ) ns :=
  fun n h => absurd h.1 (Nat.not_lt_zero n)

/-- An allocation that is in use has a content. -/
theorem contents_eq_some_of_live (h : heap.Live n) : ∃ content, heap.contents[n]? = some content :=
  ⟨_, List.getElem?_eq_getElem h.1⟩

theorem read_eq_ok_iff {content : τ} :
    heap.read n = .ok content ↔ heap.Live n ∧ heap.contents[n]? = some content := by
  rw [Heap.read]
  split
  · rename_i h
    simp [h, List.getElem?_eq_getElem h.1]
  · rename_i h
    simp [h]

theorem live_allocate_iff {content : τ} :
    (heap.allocate content).1.Live n ↔ heap.Live n ∨ n = (heap.allocate content).2 := by
  have hfreed : heap.contents.length ∉ heap.freed := fun h => Nat.lt_irrefl _ (heap.freed_lt _ h)
  simp only [Heap.allocate, Heap.Live, List.length_append, List.length_singleton]
  constructor
  · rintro ⟨hlt, hn⟩
    rcases Nat.lt_succ_iff_lt_or_eq.1 hlt with hlt | rfl
    · exact .inl ⟨hlt, hn⟩
    · exact .inr rfl
  · rintro (⟨hlt, hn⟩ | rfl)
    · exact ⟨Nat.lt_succ_of_lt hlt, hn⟩
    · exact ⟨Nat.lt_succ_self _, hfreed⟩

/-- An allocation leaves the contents of the others alone. -/
theorem contents_allocate_of_live {content : τ} (h : heap.Live n) :
    (heap.allocate content).1.contents[n]? = heap.contents[n]? :=
  List.getElem?_append_left h.1

theorem contents_allocate (heap : Heap τ) (content : τ) :
    (heap.allocate content).1.contents[(heap.allocate content).2]? = some content := by
  simp [Heap.allocate]

section Holds

variable {ns : List ℕ}

theorem NoLeak.allocate (h : NoLeak heap ns) (content : τ) :
    NoLeak (heap.allocate content).1 (ns ++ [(heap.allocate content).2]) := by
  intro n hn
  rcases live_allocate_iff.1 hn with hn | rfl
  · exact List.mem_append_left _ (h n hn)
  · exact List.mem_append_right _ (List.mem_singleton_self _)

/-- The list with one more allocation. -/
theorem Holds.allocate (h : Holds heap ns) (content : τ) :
    Holds (heap.allocate content).1 (ns ++ [(heap.allocate content).2]) := by
  constructor
  · refine List.nodup_append.2 ⟨h.distinct, List.nodup_singleton _, ?_⟩
    rintro n hn m hm rfl
    obtain rfl := List.mem_singleton.1 hm
    exact Nat.lt_irrefl _ (h.live _ hn).1
  · intro n hn
    rcases List.mem_append.1 hn with hn | hn
    · exact live_allocate_iff.2 (.inl (h.live n hn))
    · exact live_allocate_iff.2 (.inr (List.mem_singleton.1 hn))

theorem Holds.perm {ms : List ℕ} (h : Holds heap ns) (hperm : ns.Perm ms) : Holds heap ms :=
  ⟨hperm.nodup_iff.1 h.distinct, fun n hn => h.live n (hperm.mem_iff.2 hn)⟩

theorem NoLeak.perm {ms : List ℕ} (h : NoLeak heap ns) (hperm : ns.Perm ms) : NoLeak heap ms :=
  fun n hn => hperm.mem_iff.1 (h n hn)

theorem Holds.sublist {ms : List ℕ} (h : Holds heap ns) (hsub : ms.Sublist ns) : Holds heap ms :=
  ⟨h.distinct.sublist hsub, fun n hn => h.live n (hsub.subset hn)⟩

/-- **A write** replaces one content and changes nothing else. -/
theorem exists_write_eq_ok (h : heap.Live n) (content : τ) :
    ∃ heap', heap.write n content = .ok heap' ∧ (∀ m, heap'.Live m ↔ heap.Live m) ∧
      (∀ m, heap'.contents[m]? = if m = n then some content else heap.contents[m]?) ∧
      heap'.contents.length = heap.contents.length := by
  refine ⟨_, if_pos h, fun m => ?_, fun m => ?_, List.length_set⟩
  · simp only [Heap.Live, List.length_set]
  · rw [List.getElem?_set]
    by_cases hm : n = m
    · rw [if_pos hm, if_pos hm.symm, if_pos h.1]
    · rw [if_neg hm, if_neg (Ne.symm hm)]

/-- **What is held can be freed once**, and the others are held afterwards. -/
theorem Holds.exists_free_eq_ok (h : Holds heap (n :: ns)) :
    ∃ heap', heap.free n = .ok heap' ∧ heap'.contents = heap.contents ∧ Holds heap' ns ∧
      (NoLeak heap (n :: ns) → NoLeak heap' ns) := by
  obtain ⟨hnot, hdistinct⟩ := List.nodup_cons.1 h.distinct
  refine ⟨_, dif_pos (h.live n List.mem_cons_self), rfl, ⟨hdistinct, fun m hm => ?_⟩, ?_⟩
  · obtain ⟨hlt, hfreed⟩ := h.live m (List.mem_cons_of_mem _ hm)
    refine ⟨hlt, fun hmem => ?_⟩
    rcases List.mem_cons.1 hmem with rfl | hmem
    · exact hnot hm
    · exact hfreed hmem
  · rintro hleak m ⟨hlt, hfreed⟩
    rcases List.mem_cons.1 (hleak m ⟨hlt, fun hmem => hfreed (List.mem_cons_of_mem _ hmem)⟩) with
      rfl | hm
    · exact absurd List.mem_cons_self hfreed
    · exact hm

end Holds

end Allocations
