/-
**Caches that are ordered by use.**

A cache takes one call after the other.  A call may use a key, which puts the key at the recent
end, and it may drop keys.  What a user of the cache relies on is said here over the history of
calls, the latest one first: when a key was used last, and which call put it there.

Main definitions:

* `Recency.Cache` — a cache, the keys it holds from the oldest to the most recent one, and what the
  calls do to them;
* `Recency.Cache.after`, `Recency.Cache.lastUse` — the state after a history, and the time of the
  last use of a key;
* `Recency.Cache.CreatedBy` — the call that put a key there, which has stayed since;
* `Recency.ExpiresOldest` — the keys that are dropped are the oldest ones and no more than needed;
* `Recency.Cache.Lawful` — what has to be known about one call.

Main results:

* `Recency.Cache.Lawful.pairwise_keys` — **the keys are ordered by their last use**;
* `Recency.Cache.Lawful.find_eq_some_iff` — **what is found is what was put there**;
* `Recency.expiresOldest_drop` — dropping keys from the front expires the oldest ones.
-/

import Mathlib.Data.List.Basic
import Mathlib.Data.List.Nodup

set_option relaxedAutoImplicit false
set_option autoImplicit false

namespace Recency

variable {σ α κ ν : Type*} [DecidableEq κ]

theorem filter_ne_of_notMem {keys : List κ} {k : κ} (h : k ∉ keys) : keys.filter (· ≠ k) = keys :=
  List.filter_eq_self.2 fun x hx => by simpa using fun heq : x = k => h (heq ▸ hx)

/-- A cache with states `σ`, calls `α`, keys `κ` and values `ν`: the keys it holds from the oldest
to the most recent one, the value of a key, the key that a call uses, and the entry that a call puts
into the cache if its key is not there. -/
structure Cache (σ α κ ν : Type*) where
  init : σ
  step : σ → α → σ
  keys : σ → List κ
  find : σ → κ → Option ν
  uses : σ → α → Option κ
  inserts : α → Option (κ × ν)

namespace Cache

variable (M : Cache σ α κ ν)

/-- The state after a history of calls, the latest one first. -/
def after : List α → σ
  | [] => M.init
  | a :: past => M.step (after past) a

/-- The time of the last use of a key, and `0` without one. -/
def lastUse : List α → κ → ℕ
  | [], _ => 0
  | a :: past, k => if M.uses (M.after past) a = some k then past.length + 1 else lastUse past k

/-- The keys during a call: the one that it uses has become the most recent one. -/
def candidates (past : List α) (a : α) : List κ :=
  match M.uses (M.after past) a with
  | none => M.keys (M.after past)
  | some k => (M.keys (M.after past)).filter (· ≠ k) ++ [k]

/-- `v` is the value of `k` in the call that put `k` into the cache, where it has been since. -/
def CreatedBy (past : List α) (k : κ) (v : ν) : Prop :=
  ∃ later a earlier, past = later ++ a :: earlier ∧ M.inserts a = some (k, v) ∧
    k ∉ M.keys (M.after earlier) ∧ ∀ l, l <:+ later → k ∈ M.keys (M.after (l ++ a :: earlier))

/-- What has to be known about one call. -/
structure Lawful : Prop where
  init : M.keys M.init = []
  sublist : ∀ past a, (M.keys (M.after past)).Nodup →
    (M.keys (M.after (a :: past))).Sublist (M.candidates past a)
  mem_of_find : ∀ past k v, M.find (M.after past) k = some v → k ∈ M.keys (M.after past)
  kept : ∀ past a k, (M.keys (M.after past)).Nodup → (M.keys (M.after (a :: past))).Nodup →
    k ∈ M.keys (M.after past) → k ∈ M.keys (M.after (a :: past)) →
      M.find (M.after (a :: past)) k = M.find (M.after past) k
  created : ∀ past a k, (M.keys (M.after (a :: past))).Nodup →
    k ∉ M.keys (M.after past) → k ∈ M.keys (M.after (a :: past)) →
      ∃ v, M.inserts a = some (k, v) ∧ M.find (M.after (a :: past)) k = some v

variable {M}

/-! ### The order of the keys -/

theorem lastUse_le (past : List α) (k : κ) : M.lastUse past k ≤ past.length := by
  induction past with
  | nil => exact Nat.le_refl 0
  | cons a past ih =>
      rw [lastUse]
      split
      · exact Nat.le_refl _
      · exact Nat.le_succ_of_le ih

theorem candidates_of_none {past : List α} {a : α} (h : M.uses (M.after past) a = none) :
    M.candidates past a = M.keys (M.after past) := by
  rw [candidates, h]

theorem candidates_of_some {past : List α} {a : α} {k : κ}
    (h : M.uses (M.after past) a = some k) :
    M.candidates past a = (M.keys (M.after past)).filter (· ≠ k) ++ [k] := by
  rw [candidates, h]

theorem nodup_of_pairwise {past : List α} {keys : List κ}
    (h : keys.Pairwise fun x y => M.lastUse past x < M.lastUse past y) : keys.Nodup :=
  h.imp fun hlt heq => by rw [heq] at hlt; exact Nat.lt_irrefl _ hlt

/-- During a call the keys are ordered by their last use if they were so before. -/
theorem pairwise_candidates {past : List α} (a : α)
    (h : (M.keys (M.after past)).Pairwise fun x y => M.lastUse past x < M.lastUse past y) :
    (M.candidates past a).Pairwise
      fun x y => M.lastUse (a :: past) x < M.lastUse (a :: past) y := by
  simp only [lastUse]
  cases hk : M.uses (M.after past) a with
  | none => simpa [candidates_of_none hk] using h
  | some k =>
      rw [candidates_of_some hk]
      simp only [Option.some.injEq]
      refine List.pairwise_append.2 ⟨?_, List.pairwise_singleton _ _, ?_⟩
      · refine (h.filter _).imp_of_mem fun {x y} hx hy hlt => ?_
        have hxk : k ≠ x := by
          rintro rfl
          simp at hx
        have hyk : k ≠ y := by
          rintro rfl
          simp at hy
        rwa [if_neg hxk, if_neg hyk]
      · intro x hx y hy
        have hxk : k ≠ x := by
          rintro rfl
          simp at hx
        rw [List.mem_singleton.1 hy, if_neg hxk, if_pos rfl]
        exact Nat.lt_succ_of_le (lastUse_le past x)

/-! ### The call that put a key there -/

omit [DecidableEq κ] in
/-- A call does not change the call that put a key there. -/
theorem createdBy_cons {past : List α} {a : α} {k : κ} {v : ν}
    (hk : k ∈ M.keys (M.after past)) (hk' : k ∈ M.keys (M.after (a :: past))) :
    M.CreatedBy (a :: past) k v ↔ M.CreatedBy past k v := by
  constructor
  · rintro ⟨later, b, earlier, hpast, hb, hnot, hsince⟩
    cases later with
    | nil =>
        obtain ⟨rfl, rfl⟩ := List.cons.inj hpast
        exact absurd hk hnot
    | cons c later =>
        obtain ⟨rfl, rfl⟩ := List.cons.inj hpast
        exact ⟨later, b, earlier, rfl, hb, hnot,
          fun l hl => hsince l (hl.trans (List.suffix_cons _ _))⟩
  · rintro ⟨later, b, earlier, rfl, hb, hnot, hsince⟩
    refine ⟨a :: later, b, earlier, rfl, hb, hnot, fun l hl => ?_⟩
    rcases List.suffix_cons_iff.1 hl with rfl | hl
    · exact hk'
    · exact hsince l hl

/-! ### Lawful caches -/

namespace Lawful

variable (h : M.Lawful)
include h

/-- **The keys are ordered by their last use.** -/
theorem pairwise_keys (past : List α) :
    (M.keys (M.after past)).Pairwise fun x y => M.lastUse past x < M.lastUse past y := by
  induction past with
  | nil =>
      rw [after, h.init]
      exact List.Pairwise.nil
  | cons a past ih =>
      exact (pairwise_candidates a ih).sublist (h.sublist past a (nodup_of_pairwise ih))

theorem nodup_keys (past : List α) : (M.keys (M.after past)).Nodup :=
  nodup_of_pairwise (h.pairwise_keys past)

/-- **What is found is what was put there**, if it has not been removed since. -/
theorem find_eq_some_iff (past : List α) (k : κ) (v : ν) :
    M.find (M.after past) k = some v ↔ M.CreatedBy past k v := by
  induction past with
  | nil =>
      refine iff_of_false (fun hv => ?_) ?_
      · have hk := h.mem_of_find [] k v hv
        rw [after, h.init] at hk
        cases hk
      · rintro ⟨later, a, earlier, hpast, -⟩
        cases later <;> cases hpast
  | cons a past ih =>
      by_cases hk' : k ∈ M.keys (M.after (a :: past))
      · by_cases hk : k ∈ M.keys (M.after past)
        · rw [h.kept past a k (h.nodup_keys _) (h.nodup_keys _) hk hk', ih, createdBy_cons hk hk']
        · obtain ⟨w, hw, hfind⟩ := h.created past a k (h.nodup_keys _) hk hk'
          rw [hfind]
          constructor
          · intro hwv
            rw [Option.some.inj hwv] at hw
            refine ⟨[], a, past, rfl, hw, hk, fun l hl => ?_⟩
            rw [List.suffix_nil.1 hl]
            exact hk'
          · rintro ⟨later, b, earlier, hpast, hb, hnot, hsince⟩
            cases later with
            | nil =>
                obtain ⟨rfl, rfl⟩ := List.cons.inj hpast
                rw [hw] at hb
                cases hb
                rfl
            | cons c later =>
                obtain ⟨rfl, rfl⟩ := List.cons.inj hpast
                exact absurd (hsince later (List.suffix_cons _ _)) hk
      · refine iff_of_false (fun hv => hk' (h.mem_of_find _ k v hv)) ?_
        rintro ⟨later, b, earlier, hpast, -, -, hsince⟩
        rw [hpast] at hk'
        exact hk' (hsince later List.suffix_rfl)

end Lawful

end Cache

/-! ### Dropping the oldest keys -/

omit [DecidableEq κ] in
/-- Of the candidates, no more are dropped than the limit demands, and each of them was used before
all that are kept. -/
def ExpiresOldest (lastUse : κ → ℕ) (limit : ℕ) (candidates kept : List κ) : Prop :=
  kept ⊆ candidates ∧ kept.length = min candidates.length limit ∧
    ∀ e ∈ candidates, e ∉ kept → ∀ k ∈ kept, lastUse e < lastUse k

omit [DecidableEq κ] in
theorem expiresOldest_drop {lastUse : κ → ℕ} (limit : ℕ) {candidates : List κ}
    (h : candidates.Pairwise fun x y => lastUse x < lastUse y) :
    ExpiresOldest lastUse limit candidates (candidates.drop (candidates.length - limit)) := by
  refine ⟨List.drop_subset _ _, by rw [List.length_drop]; omega, fun e he hnot k hk => ?_⟩
  rw [← List.take_append_drop (candidates.length - limit) candidates] at h he
  exact (List.pairwise_append.1 h).2.2 e ((List.mem_append.1 he).resolve_right hnot) k hk

end Recency
