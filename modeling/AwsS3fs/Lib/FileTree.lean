/-
**A tree of files and directories.**

What `chown`, `write`, `rename` and `rmdir` do, and when they do nothing.  A tree is the finite
list of what there is, each with the names that lead to it; that there is one thing at a path, and
that what contains something is a directory, comes with the tree.  A call that POSIX lets fail
leaves the tree as it is.  There are no links and no permissions here: the calls are those of a
process that may do everything.

Main definitions:

* `FileTree.Entry`, `FileTree.Tree` — a file or a directory, and a tree of them;
* `FileTree.Tree.chown`, `FileTree.Tree.write`, `FileTree.Tree.rmdir`, `FileTree.Tree.rename` — the
  calls;
* `FileTree.components` — the names in a path.

Main results:

* `FileTree.Tree.chown_eq_self`, `FileTree.Tree.has_rename` — **what is where after a call**;
* `FileTree.Tree.dir_of_has` — what leads to something is a directory;
* `FileTree.components_append` — the names in a path that is put together.
-/

import Mathlib.Data.List.Induction
import Mathlib.Data.List.Nodup

set_option relaxedAutoImplicit false
set_option autoImplicit false

namespace FileTree

/-- A directory or a file, with its owner. -/
inductive Entry (κ ω : Type*)
  | dir (owner : ω)
  | file (content : κ) (owner : ω)
  deriving DecidableEq, Repr

namespace Entry

variable {κ ω : Type*}

def setOwner (owner : ω) : Entry κ ω → Entry κ ω
  | dir _ => dir owner
  | file content _ => file content owner

def isDir : Entry κ ω → Bool
  | dir _ => true
  | file _ _ => false

def mapContent (g : κ → κ) : Entry κ ω → Entry κ ω
  | dir owner => dir owner
  | file content owner => file (g content) owner

theorem isDir_setOwner (x : Entry κ ω) (owner : ω) : (x.setOwner owner).isDir = x.isDir := by
  cases x <;> rfl

theorem isDir_mapContent (x : Entry κ ω) (g : κ → κ) : (x.mapContent g).isDir = x.isDir := by
  cases x <;> rfl

end Entry

/-- A tree of files and directories: what there is at which path. -/
structure Tree (ν κ ω : Type*) where
  entries : List (List ν × Entry κ ω)
  unique : (entries.map Prod.fst).Nodup
  parent : ∀ e ∈ entries, e.1 ≠ [] → ∃ d ∈ entries, d.1 = e.1.dropLast ∧ d.2.isDir = true

namespace Tree

/-- The directory of something, by its last name. -/
theorem parent_iff {ν κ ω : Type*} {l : List (List ν × Entry κ ω)} :
    (∀ e ∈ l, e.1 ≠ [] → ∃ d ∈ l, d.1 = e.1.dropLast ∧ d.2.isDir = true) ↔
      ∀ e ∈ l, ∀ p name, e.1 = p ++ [name] → ∃ d ∈ l, d.1 = p ∧ d.2.isDir = true := by
  refine forall₂_congr fun e _ => ⟨fun h p name heq => ?_, fun h hne => ?_⟩
  · obtain ⟨d, hd, hdp, hdir⟩ := h (by rw [heq]; simp)
    exact ⟨d, hd, by rw [hdp, heq, List.dropLast_concat], hdir⟩
  · obtain ⟨p, name, heq⟩ := (List.eq_nil_or_concat' e.1).resolve_left hne
    obtain ⟨d, hd, hdp, hdir⟩ := h p name heq
    exact ⟨d, hd, by rw [hdp, heq, List.dropLast_concat], hdir⟩

variable {ν κ ω : Type*} (t : Tree ν κ ω)

/-- There is something at a path. -/
def Has (p : List ν) (x : Entry κ ω) : Prop := (p, x) ∈ t.entries

instance [DecidableEq ν] [DecidableEq κ] [DecidableEq ω] (p : List ν) (x : Entry κ ω) :
    Decidable (t.Has p x) := inferInstanceAs (Decidable ((p, x) ∈ t.entries))

variable {t}

theorem Has.unique {p : List ν} {x y : Entry κ ω} (hx : t.Has p x) (hy : t.Has p y) : x = y :=
  congrArg Prod.snd (List.inj_on_of_nodup_map t.unique hx hy rfl)

theorem not_has_of_not_mem {p : List ν} (h : p ∉ t.entries.map Prod.fst) (x : Entry κ ω) :
    ¬ t.Has p x :=
  fun hx => h (List.mem_map_of_mem hx)

/-- What contains something is a directory. -/
theorem Has.parent {p : List ν} {name : ν} {x : Entry κ ω} (h : t.Has (p ++ [name]) x) :
    ∃ d, t.Has p d ∧ d.isDir = true := by
  obtain ⟨⟨q, d⟩, hd, rfl, hdir⟩ := parent_iff.1 t.parent _ h p name rfl
  exact ⟨d, hd, hdir⟩

/-- **What leads to something is a directory.** -/
theorem dir_of_has {p q : List ν} (hq : q ≠ []) :
    ∀ {x : Entry κ ω}, t.Has (p ++ q) x → ∃ d, t.Has p d ∧ d.isDir = true := by
  induction q using List.reverseRecOn with
  | nil => exact absurd rfl hq
  | append_singleton q name ih =>
      intro x h
      rw [← List.append_assoc] at h
      obtain ⟨d, hd, hdir⟩ := h.parent
      by_cases hnil : q = []
      · rw [hnil, List.append_nil] at hd
        exact ⟨d, hd, hdir⟩
      · exact ih hnil hd

/-! ### Changing what is at a path -/

variable [DecidableEq ν]

/-- What is at a path is changed, but stays a file or a directory. -/
def modify (t : Tree ν κ ω) (p : List ν) (g : Entry κ ω → Entry κ ω)
    (hg : ∀ x, (g x).isDir = x.isDir) : Tree ν κ ω where
  entries := t.entries.map fun e => if e.1 = p then (e.1, g e.2) else e
  unique := by
    rw [List.map_map]
    refine (List.map_congr_left fun e _ => ?_) ▸ t.unique
    simp only [Function.comp_apply]
    split <;> rfl
  parent := by
    refine parent_iff.2 fun e he q name heq => ?_
    obtain ⟨e₀, he₀, rfl⟩ := List.mem_map.1 he
    have hkey : e₀.1 = q ++ [name] := by
      rw [← heq]
      split <;> rfl
    obtain ⟨d, hd, hdq, hdir⟩ := parent_iff.1 t.parent e₀ he₀ q name hkey
    refine ⟨_, List.mem_map_of_mem hd, ?_⟩
    split
    · exact ⟨hdq, by rw [hg, hdir]⟩
    · exact ⟨hdq, hdir⟩

/-- `chown`: what is at the path gets another owner. -/
def chown (t : Tree ν κ ω) (p : List ν) (owner : ω) : Tree ν κ ω :=
  t.modify p (·.setOwner owner) fun x => x.isDir_setOwner owner

/-- A write to a file. -/
def write (t : Tree ν κ ω) (p : List ν) (g : κ → κ) : Tree ν κ ω :=
  t.modify p (·.mapContent g) fun x => x.isDir_mapContent g

/-- Nothing changes at a path at which there is nothing. -/
theorem modify_eq_self {p : List ν} {g : Entry κ ω → Entry κ ω}
    (hg : ∀ x, (g x).isDir = x.isDir) (h : ∀ x, ¬ t.Has p x) : t.modify p g hg = t := by
  have hentries : (t.modify p g hg).entries = t.entries := by
    refine (List.map_congr_left fun e he => ?_).trans (List.map_id _)
    rw [if_neg]
    · rfl
    · rintro rfl
      exact h e.2 he
  cases t
  simp only [modify, mk.injEq] at hentries ⊢
  exact hentries

/-- `chown` of a path at which there is nothing. -/
theorem chown_eq_self {p : List ν} {owner : ω} (h : ∀ x, ¬ t.Has p x) : t.chown p owner = t :=
  modify_eq_self _ h

/-! ### `rmdir` -/

/-- A directory that is empty. -/
def Removable (t : Tree ν κ ω) (p : List ν) : Prop :=
  (∃ e ∈ t.entries, e.1 = p ∧ e.2.isDir = true) ∧ ∀ e ∈ t.entries, p <+: e.1 → e.1 = p

instance (t : Tree ν κ ω) (p : List ν) : Decidable (t.Removable p) :=
  inferInstanceAs (Decidable (_ ∧ _))

/-- `rmdir`. -/
def rmdir (t : Tree ν κ ω) (p : List ν) : Tree ν κ ω :=
  if h : t.Removable p then
    { entries := t.entries.filter (·.1 ≠ p)
      unique := t.unique.sublist (List.filter_sublist.map _)
      parent := by
        refine parent_iff.2 fun e he q name heq => ?_
        obtain ⟨d, hd, hdq, hdir⟩ :=
          parent_iff.1 t.parent e (List.mem_of_mem_filter he) q name heq
        refine ⟨d, List.mem_filter.2 ⟨hd, ?_⟩, hdq, hdir⟩
        -- the directory of what is left is not the one that was empty
        refine decide_eq_true fun hp => ?_
        have hprefix : p <+: e.1 := by rw [heq, ← hdq, hp]; exact List.prefix_append _ _
        exact of_decide_eq_true (List.mem_filter.1 he).2
          (h.2 e (List.mem_of_mem_filter he) hprefix) }
  else t

/-- `rmdir` of a path at which there is nothing. -/
theorem rmdir_eq_self {p : List ν} (h : ∀ x, ¬ t.Has p x) : t.rmdir p = t := by
  rw [rmdir, dif_neg]
  rintro ⟨⟨e, he, rfl, -⟩, -⟩
  exact h e.2 he

/-! ### `rename` -/

/-- When something can be moved: there is something at the old path, neither path leads to the
other, the new path is in a directory, and what is replaced is a file by a file, or a directory that
is empty by a directory. -/
def Renamable (t : Tree ν κ ω) (old new : List ν) : Prop :=
  ¬ old <+: new ∧ ¬ new <+: old ∧
  (∃ e ∈ t.entries, e.1 = old ∧
    ∀ e' ∈ t.entries, new <+: e'.1 → e'.1 = new ∧ e'.2.isDir = e.2.isDir) ∧
  new ≠ [] ∧ ∃ d ∈ t.entries, d.1 = new.dropLast ∧ d.2.isDir = true

instance (t : Tree ν κ ω) (old new : List ν) : Decidable (t.Renamable old new) :=
  inferInstanceAs (Decidable (_ ∧ _ ∧ _ ∧ _ ∧ _))

/-- Where something is after it was moved along with what contains it. -/
def moved (old new q : List ν) : List ν := if old <+: q then new ++ q.drop old.length else q

theorem moved_append (old new q : List ν) : moved old new (old ++ q) = new ++ q := by
  rw [moved, if_pos (List.prefix_append _ _), List.drop_left]

theorem moved_of_not_under {old new q : List ν} (h : ¬ old <+: q) : moved old new q = q := if_neg h

theorem moved_inj {old new q q' : List ν} (hq : ¬ new <+: q) (hq' : ¬ new <+: q')
    (h : moved old new q = moved old new q') : q = q' := by
  by_cases ho : old <+: q <;> by_cases ho' : old <+: q'
  · obtain ⟨r, rfl⟩ := ho
    obtain ⟨r', rfl⟩ := ho'
    rw [moved_append, moved_append, List.append_cancel_left_eq] at h
    rw [h]
  · obtain ⟨r, rfl⟩ := ho
    rw [moved_append, moved_of_not_under ho'] at h
    exact absurd ⟨r, h⟩ hq'
  · obtain ⟨r, rfl⟩ := ho'
    rw [moved_append, moved_of_not_under ho] at h
    exact absurd ⟨r, h.symm⟩ hq
  · rwa [moved_of_not_under ho, moved_of_not_under ho'] at h

/-- What is left besides the new path. -/
def besides (t : Tree ν κ ω) (new : List ν) : List (List ν × Entry κ ω) :=
  t.entries.filter fun e => ¬ new <+: e.1

theorem mem_besides {new : List ν} {e : List ν × Entry κ ω} :
    e ∈ t.besides new ↔ e ∈ t.entries ∧ ¬ new <+: e.1 := by
  simp [besides]

/-- After a move, too, what contains something is a directory. -/
theorem parent_moved {old new : List ν} (h : t.Renamable old new) {e : List ν × Entry κ ω}
    (he : e ∈ t.besides new) {q : List ν} {name : ν} (heq : moved old new e.1 = q ++ [name]) :
    ∃ d ∈ t.besides new, moved old new d.1 = q ∧ d.2.isDir = true := by
  obtain ⟨hold, hnew, -, hne, d₀, hd₀, hd₀new, hd₀dir⟩ := h
  obtain ⟨he, hekeep⟩ := mem_besides.1 he
  by_cases hmoved : old <+: e.1
  · obtain ⟨r, hr⟩ := hmoved
    rw [← hr, moved_append] at heq
    rcases List.eq_nil_or_concat' r with rfl | ⟨r, name', rfl⟩
    · -- what was moved itself: its new directory stays where it is
      rw [List.append_nil] at heq
      have hq : new.dropLast = q := by rw [heq, List.dropLast_concat]
      have hlong : ¬ new <+: d₀.1 := by
        intro hp
        have := hp.length_le
        rw [hd₀new, hq, heq, List.length_append, List.length_singleton] at this
        omega
      refine ⟨d₀, mem_besides.2 ⟨hd₀, hlong⟩, ?_, hd₀dir⟩
      rw [hd₀new, hq, moved_of_not_under]
      intro hp
      exact hold (hp.trans (heq ▸ List.prefix_append _ _))
    · -- something in it: its directory was moved, too
      rw [← List.append_assoc] at heq hr
      obtain ⟨d, hd, hdkey, hdir⟩ := parent_iff.1 t.parent e he (old ++ r) name' hr.symm
      obtain ⟨hq, -⟩ := List.append_inj' heq rfl
      refine ⟨d, mem_besides.2 ⟨hd, fun hp => ?_⟩, ?_, hdir⟩
      · rw [hdkey] at hp
        rcases List.prefix_or_prefix_of_prefix hp (List.prefix_append old r) with hp | hp
        · exact hnew hp
        · exact hold hp
      · rw [hdkey, moved_append, hq]
  · -- something else: its directory stays where it is
    rw [moved_of_not_under hmoved] at heq
    obtain ⟨d, hd, hdkey, hdir⟩ := parent_iff.1 t.parent e he q name heq
    have hprefix : d.1 <+: e.1 := by rw [hdkey, heq]; exact List.prefix_append _ _
    refine ⟨d, mem_besides.2 ⟨hd, fun hp => hekeep (hp.trans hprefix)⟩, ?_, hdir⟩
    rw [moved_of_not_under fun hp => hmoved (hp.trans hprefix), hdkey]

/-- `rename`: what is at the old path is moved to the new one, with all that is in it. -/
def rename (t : Tree ν κ ω) (old new : List ν) : Tree ν κ ω :=
  if h : t.Renamable old new then
    { entries := (t.besides new).map fun e => (moved old new e.1, e.2)
      unique := by
        rw [List.map_map]
        have hnodup : ((t.besides new).map Prod.fst).Nodup :=
          t.unique.sublist (List.filter_sublist.map _)
        refine List.Nodup.map_on (fun e he e' he' heq => ?_) (List.Nodup.of_map _ hnodup)
        have hkey := moved_inj (mem_besides.1 he).2 (mem_besides.1 he').2 heq
        exact List.inj_on_of_nodup_map hnodup he he' hkey
      parent := by
        refine parent_iff.2 fun e he q name heq => ?_
        obtain ⟨e₀, he₀, rfl⟩ := List.mem_map.1 he
        obtain ⟨d, hd, hdq, hdir⟩ := parent_moved h he₀ heq
        exact ⟨_, List.mem_map_of_mem hd, hdq, hdir⟩ }
  else t

/-- **What is where after a move.** -/
theorem has_rename {old new : List ν} (h : t.Renamable old new) {q : List ν} {x : Entry κ ω} :
    (t.rename old new).Has q x ↔ ∃ q₀, t.Has q₀ x ∧ ¬ new <+: q₀ ∧ moved old new q₀ = q := by
  rw [rename, dif_pos h, Has]
  simp only [List.mem_map, Prod.mk.injEq, mem_besides, Prod.exists]
  constructor
  · rintro ⟨q₀, y, ⟨hmem, hkeep⟩, hq, rfl⟩
    exact ⟨q₀, hmem, hkeep, hq⟩
  · rintro ⟨q₀, hmem, hkeep, hq⟩
    exact ⟨q₀, x, ⟨hmem, hkeep⟩, hq, rfl⟩

/-- What was moved is at its new place. -/
theorem has_rename_append {old new : List ν} (h : t.Renamable old new) {q : List ν}
    {x : Entry κ ω} : (t.rename old new).Has (new ++ q) x ↔ t.Has (old ++ q) x := by
  rw [has_rename h]
  obtain ⟨hold, hnew, -⟩ := h
  constructor
  · rintro ⟨q₀, hmem, hkeep, hq⟩
    by_cases hp : old <+: q₀
    · obtain ⟨r, rfl⟩ := hp
      rw [moved_append, List.append_cancel_left_eq] at hq
      exact hq ▸ hmem
    · rw [moved_of_not_under hp] at hq
      exact absurd ⟨q, hq.symm⟩ hkeep
  · intro hmem
    refine ⟨old ++ q, hmem, fun hp => ?_, moved_append old new q⟩
    rcases List.prefix_or_prefix_of_prefix hp (List.prefix_append old q) with hp | hp
    · exact hnew hp
    · exact hold hp

/-- What is elsewhere stays there. -/
theorem has_rename_of_not_prefix {old new : List ν} (h : t.Renamable old new) {q : List ν}
    {x : Entry κ ω} (hq : ¬ new <+: q) :
    (t.rename old new).Has q x ↔ t.Has q x ∧ ¬ old <+: q := by
  rw [has_rename h]
  constructor
  · rintro ⟨q₀, hmem, hkeep, rfl⟩
    by_cases hp : old <+: q₀
    · rw [moved, if_pos hp] at hq
      exact absurd (List.prefix_append _ _) hq
    · rw [moved_of_not_under hp]
      exact ⟨hmem, hp⟩
  · rintro ⟨hmem, hp⟩
    exact ⟨q, hmem, hq, moved_of_not_under hp⟩

end Tree

/-! ### Paths -/

section

variable {α : Type*} [DecidableEq α]

/-- The names in a path, with a separator between them. -/
def components (separator : α) (path : List α) : List (List α) :=
  (path.splitOn separator).filter (· ≠ [])

/-- **The names in a path that is put together.** -/
theorem components_append (separator : α) (p q : List α) :
    components separator (p ++ separator :: q) =
      components separator p ++ components separator q := by
  rw [components, List.splitOn_append_cons_self, List.filter_append]
  rfl

/-- A name is a path with one component. -/
theorem components_name {separator : α} {name : List α} (h : separator ∉ name) (hne : name ≠ []) :
    components separator name = [name] := by
  rw [components, List.splitOn_eq_singleton h]
  simp [hne]

end

end FileTree
