/-
**Threads that lock mutexes in order.**

A thread that calls a function goes through a list of events: it locks a mutex, it unlocks one, or
it makes an access to something that is shared.  A mutex can be locked if no thread holds it, also
not the one that locks it.  A list of events is disciplined if every mutex that it locks has a
greater rank than the mutexes held at that point, if it makes every access while it holds the mutex
that guards what is accessed, and if it holds nothing in the end.

Main definitions:

* `Locks.Event`, `Locks.Thread` — what a thread does, and where it is;
* `Locks.step` — a thread begins a call, or does what comes next in it;
* `Locks.Keeps`, `Locks.Disciplined` — a list of events that keeps to the order of the mutexes;
* `Locks.WellLocked` — the invariant of threads whose calls are disciplined.

Main results:

* `Locks.wellLocked_of_run` — the invariant holds after every run;
* `Locks.WellLocked.not_both_access` — **no two threads are at the same thing at the same time**;
* `Locks.WellLocked.exists_advance` — **there is no deadlock**;
* `Locks.WellLocked.completes` — all calls can come to their end.
-/

import Mathlib.Algebra.GroupWithZero.Nat
import Mathlib.Algebra.Order.BigOperators.Group.List
import Mathlib.Algebra.Order.Group.Nat
import AwsS3fs.Lib.Runs
import AwsS3fs.Lib.Threads

set_option relaxedAutoImplicit false
set_option autoImplicit false

namespace Locks

open Runs Threads

/-! ### Threads and mutexes -/

/-- What a thread does next. -/
inductive Event (μ ρ : Type*)
  | lock (m : μ)
  | unlock (m : μ)
  | access (r : ρ)
  deriving DecidableEq, Repr

/-- A thread: the mutexes it holds, and what is left of its call. -/
structure Thread (μ ρ : Type*) where
  held : List μ
  rest : List (Event μ ρ)
  deriving DecidableEq, Repr

variable {μ ρ : Type*} [DecidableEq μ]

/-- A thread that is in no call. -/
def Thread.idle : Thread μ ρ := ⟨[], []⟩

/-- No thread holds a mutex. -/
def Free (threads : List (Thread μ ρ)) (m : μ) : Prop := ∀ t ∈ threads, m ∉ t.held

instance (threads : List (Thread μ ρ)) (m : μ) : Decidable (Free threads m) :=
  inferInstanceAs (Decidable (∀ t ∈ threads, _))

/-- A thread after its next event, if the event can happen among these threads. -/
def advance (threads : List (Thread μ ρ)) (t : Thread μ ρ) : Option (Thread μ ρ) :=
  match t.rest with
  | [] => none
  | .lock m :: rest => if Free threads m then some ⟨m :: t.held, rest⟩ else none
  | .unlock m :: rest => some ⟨t.held.erase m, rest⟩
  | .access _ :: rest => some ⟨t.held, rest⟩

/-- What happens. -/
inductive Action (μ ρ : Type*)
  /-- A thread that is in no call begins one. -/
  | begin (i : ℕ) (call : List (Event μ ρ))
  /-- A thread does what comes next in its call. -/
  | advance (i : ℕ)

/-- One step of one thread. -/
def step (threads : List (Thread μ ρ)) : Action μ ρ → Option (List (Thread μ ρ))
  | .begin i call =>
      match threads[i]? with
      | none => none
      | some t => if t.rest.isEmpty then some (threads.set i { t with rest := call }) else none
  | .advance i =>
      match threads[i]? with
      | none => none
      | some t => (advance threads t).map (threads.set i ·)

/-! ### The order of the mutexes -/

section Discipline

variable (rank : μ → ℕ) (guard : ρ → μ)

/-- The mutexes that are held after an event, if the event keeps to the order. -/
def hold (held : List μ) : Event μ ρ → Option (List μ)
  | .lock m => if ∀ k ∈ held, rank k < rank m then some (m :: held) else none
  | .unlock m => if m ∈ held then some (held.erase m) else none
  | .access r => if guard r ∈ held then some held else none

/-- A list of events that keeps to the order while some mutexes are held, and holds the same ones in
the end. -/
def Keeps (held : List μ) (call : List (Event μ ρ)) : Prop :=
  run (hold rank guard) held call = some held

instance (held : List μ) (call : List (Event μ ρ)) : Decidable (Keeps rank guard held call) :=
  inferInstanceAs (Decidable (_ = _))

/-- **A list of events that keeps to the order**, and that holds nothing in the end. -/
def Disciplined (call : List (Event μ ρ)) : Prop := Keeps rank guard [] call

/-- What is left of every call keeps to the order, and no mutex is held by two threads. -/
structure WellLocked (threads : List (Thread μ ρ)) : Prop where
  disciplined : ∀ t ∈ threads, run (hold rank guard) t.held t.rest = some []
  exclusive : ∀ (i j : ℕ) (t u : Thread μ ρ), threads[i]? = some t → threads[j]? = some u → i ≠ j →
    ∀ m ∈ t.held, m ∉ u.held

variable {rank guard} {threads threads' : List (Thread μ ρ)} {t t' : Thread μ ρ} {m : μ}

/-! ### Lists of events -/

/-- What the discipline says about the next event of a call. -/
theorem hold_of_run {held : List μ} {e : Event μ ρ} {rest : List (Event μ ρ)}
    (h : run (hold rank guard) held (e :: rest) = some []) :
    ∃ held', hold rank guard held e = some held' ∧ run (hold rank guard) held' rest = some [] :=
  run_cons.1 h

theorem rank_lt_of_hold {held held' : List μ} (h : hold rank guard held (.lock m) = some held') :
    (∀ k ∈ held, rank k < rank m) ∧ held' = m :: held := by
  rw [hold] at h
  split at h
  · rename_i hlt
    exact ⟨hlt, (Option.some.inj h).symm⟩
  · cases h

/-- A mutex of a greater rank than those that are held may be locked. -/
theorem run_lock (held : List μ) (rest : List (Event μ ρ)) :
    run (hold rank guard) held (.lock m :: rest) =
      if ∀ k ∈ held, rank k < rank m then run (hold rank guard) (m :: held) rest else none := by
  rw [run, hold]
  split <;> rfl

theorem run_unlock (held : List μ) (rest : List (Event μ ρ)) :
    run (hold rank guard) held (.unlock m :: rest) =
      if m ∈ held then run (hold rank guard) (held.erase m) rest else none := by
  rw [run, hold]
  split <;> rfl

/-- An access may be made while the mutex that guards it is held. -/
theorem run_access (held : List μ) (r : ρ) (rest : List (Event μ ρ)) :
    run (hold rank guard) held (.access r :: rest) =
      if guard r ∈ held then run (hold rank guard) held rest else none := by
  rw [run, hold]
  split <;> rfl

/-- A call that is over holds nothing. -/
theorem held_eq_nil (ht : run (hold rank guard) t.held t.rest = some []) (hrest : t.rest = []) :
    t.held = [] := by
  rw [hrest, run_nil] at ht
  exact Option.some.inj ht

theorem keeps_nil (held : List μ) : Keeps rank guard held ([] : List (Event μ ρ)) := rfl

theorem Keeps.append {held : List μ} {c d : List (Event μ ρ)} (hc : Keeps rank guard held c)
    (hd : Keeps rank guard held d) : Keeps rank guard held (c ++ d) :=
  run_append.2 ⟨held, hc, hd⟩

theorem Keeps.ite {held : List μ} {c d : List (Event μ ρ)} (p : Prop) [Decidable p]
    (hc : Keeps rank guard held c) (hd : Keeps rank guard held d) :
    Keeps rank guard held (if p then c else d) := by
  split
  · exact hc
  · exact hd

theorem Keeps.flatten {held : List μ} {calls : List (List (Event μ ρ))}
    (h : ∀ c ∈ calls, Keeps rank guard held c) : Keeps rank guard held calls.flatten := by
  induction calls with
  | nil => exact keeps_nil held
  | cons c calls ih =>
      obtain ⟨hc, hcalls⟩ := List.forall_mem_cons.1 h
      exact hc.append (ih hcalls)

/-- What a function does between locking a mutex and unlocking it. -/
theorem Keeps.locked {held : List μ} {c : List (Event μ ρ)} (hm : ∀ k ∈ held, rank k < rank m)
    (hc : Keeps rank guard (m :: held) c) :
    Keeps rank guard held (.lock m :: c ++ [.unlock m]) := by
  rw [Keeps, List.cons_append, run_lock, if_pos hm]
  refine run_append.2 ⟨m :: held, hc, ?_⟩
  rw [run_unlock, if_pos List.mem_cons_self, List.erase_cons_head, run_nil]

/-! ### The invariant -/

theorem wellLocked_idle (n : ℕ) :
    WellLocked rank guard (List.replicate n (Thread.idle : Thread μ ρ)) := by
  have hidle : ∀ t ∈ List.replicate n (Thread.idle : Thread μ ρ), t = Thread.idle :=
    fun t ht => List.eq_of_mem_replicate ht
  refine ⟨fun t ht => ?_, fun i j t u hi _ _ m hm => ?_⟩
  · rw [hidle t ht]
    rfl
  · rw [hidle t (List.mem_of_getElem? hi)] at hm
    cases hm

/-- A thread after its next event: what is left keeps to the order, and every mutex that it holds it
has held before, or no thread has held. -/
theorem advance_spec (ht : run (hold rank guard) t.held t.rest = some [])
    (h : advance threads t = some t') :
    run (hold rank guard) t'.held t'.rest = some [] ∧
      ∀ m ∈ t'.held, m ∈ t.held ∨ Free threads m := by
  obtain ⟨held, rest⟩ := t
  cases rest with
  | nil => cases h
  | cons e rest =>
      obtain ⟨next, hnext, hrest⟩ := hold_of_run ht
      cases e with
      | lock m =>
          obtain ⟨-, rfl⟩ := rank_lt_of_hold hnext
          simp only [advance] at h
          split at h
          · rename_i hfree
            obtain rfl := Option.some.inj h
            refine ⟨hrest, fun k hk => ?_⟩
            rcases List.mem_cons.1 hk with rfl | hk
            · exact .inr hfree
            · exact .inl hk
          · cases h
      | unlock m =>
          rw [hold] at hnext
          split at hnext
          · obtain rfl := Option.some.inj hnext
            obtain rfl := Option.some.inj h
            exact ⟨hrest, fun k hk => .inl (List.mem_of_mem_erase hk)⟩
          · cases hnext
      | access r =>
          rw [hold] at hnext
          split at hnext
          · obtain rfl := Option.some.inj hnext
            obtain rfl := Option.some.inj h
            exact ⟨hrest, fun k hk => .inl hk⟩
          · cases hnext

/-- A step of one thread keeps the invariant, if what it holds it has held before, or no thread has
held. -/
theorem WellLocked.set (h : WellLocked rank guard threads) {i : ℕ} (hi : threads[i]? = some t)
    (ht' : run (hold rank guard) t'.held t'.rest = some [])
    (hheld : ∀ m ∈ t'.held, m ∈ t.held ∨ Free threads m) :
    WellLocked rank guard (threads.set i t') := by
  refine ⟨fun u hu => ?_, fun j k u v hj hk hne m hm hm' => ?_⟩
  · rcases List.mem_or_eq_of_mem_set hu with hu | rfl
    · exact h.disciplined u hu
    · exact ht'
  · rcases of_getElem?_set hj with ⟨rfl, rfl⟩ | ⟨-, hu⟩
    · rcases of_getElem?_set hk with ⟨rfl, rfl⟩ | ⟨-, hv⟩
      · exact hne rfl
      · rcases hheld m hm with hm | hfree
        · exact h.exclusive _ _ _ _ hi hv hne m hm hm'
        · exact hfree v (List.mem_of_getElem? hv) hm'
    · rcases of_getElem?_set hk with ⟨rfl, rfl⟩ | ⟨-, hv⟩
      · rcases hheld m hm' with hm' | hfree
        · exact h.exclusive _ _ _ _ hu hi hne m hm hm'
        · exact hfree u (List.mem_of_getElem? hu) hm
      · exact h.exclusive _ _ _ _ hu hv hne m hm hm'

/-- The calls that begin are disciplined. -/
def BeginsDisciplined (rank : μ → ℕ) (guard : ρ → μ) (actions : List (Action μ ρ)) : Prop :=
  ∀ i call, .begin i call ∈ actions → Disciplined rank guard call

/-- One step keeps the invariant. -/
theorem WellLocked.next {a : Action μ ρ} (h : WellLocked rank guard threads)
    (ha : ∀ i call, a = .begin i call → Disciplined rank guard call)
    (hstep : step threads a = some threads') : WellLocked rank guard threads' := by
  cases a with
  | begin i call =>
      simp only [step] at hstep
      cases hi : threads[i]? with
      | none =>
          rw [hi] at hstep
          cases hstep
      | some t =>
          simp only [hi] at hstep
          split at hstep
          · rename_i hempty
            obtain rfl := Option.some.inj hstep
            have hnil := held_eq_nil (h.disciplined t (List.mem_of_getElem? hi))
              (List.isEmpty_iff.1 hempty)
            refine h.set hi ?_ fun m hm => .inl hm
            rw [hnil]
            exact ha i call rfl
          · cases hstep
  | advance i =>
      simp only [step] at hstep
      cases hi : threads[i]? with
      | none =>
          rw [hi] at hstep
          cases hstep
      | some t =>
          simp only [hi] at hstep
          obtain ⟨t', ht', rfl⟩ := Option.map_eq_some_iff.1 hstep
          obtain ⟨hrun, hheld⟩ := advance_spec (h.disciplined t (List.mem_of_getElem? hi)) ht'
          exact h.set hi hrun hheld

/-- **The invariant holds after every run** whose calls are disciplined. -/
theorem wellLocked_of_run {actions : List (Action μ ρ)} (h : WellLocked rank guard threads)
    (hcalls : BeginsDisciplined rank guard actions)
    (hrun : run step threads actions = some threads') : WellLocked rank guard threads' := by
  refine run_inv (C := fun _ a _ => ∀ i call, a = .begin i call → Disciplined rank guard call)
    (fun s a s' hs ha hstep => hs.next ha hstep) h (along_of_forall ?_) hrun
  rintro a ha _ _ i call rfl
  exact hcalls i call ha

/-! ### What the invariant gives -/

/-- **No two threads are at the same thing at the same time.** -/
theorem WellLocked.not_both_access (h : WellLocked rank guard threads) {i j : ℕ}
    {u : Thread μ ρ} {r : ρ} (hi : threads[i]? = some t) (hj : threads[j]? = some u) (hne : i ≠ j)
    (ht : t.rest.head? = some (.access r)) : u.rest.head? ≠ some (.access r) := by
  have hguard : ∀ v ∈ threads, v.rest.head? = some (.access r) → guard r ∈ v.held := by
    intro v hv hhead
    obtain ⟨rest, hrest⟩ := List.head?_eq_some_iff.1 hhead
    have hv := h.disciplined v hv
    rw [hrest] at hv
    obtain ⟨held', hheld', -⟩ := hold_of_run hv
    rw [hold] at hheld'
    split at hheld'
    · assumption
    · cases hheld'
  intro hu
  exact h.exclusive i j t u hi hj hne _ (hguard t (List.mem_of_getElem? hi) ht)
    (hguard u (List.mem_of_getElem? hj) hu)

/-- The rank of the mutex that a thread is about to lock. -/
def wanted (rank : μ → ℕ) (t : Thread μ ρ) : ℕ :=
  match t.rest with
  | .lock m :: _ => rank m
  | _ => 0

/-- A thread that cannot go on wants a mutex that is not free. -/
theorem lock_of_advance_eq_none (hrest : t.rest ≠ []) (h : advance threads t = none) :
    ∃ m rest, t.rest = .lock m :: rest ∧ ¬ Free threads m := by
  obtain ⟨held, rest⟩ := t
  cases rest with
  | nil => exact absurd rfl hrest
  | cons e rest =>
      cases e with
      | lock m =>
          refine ⟨m, rest, rfl, fun hfree => ?_⟩
          simp only [advance] at h
          rw [if_pos hfree] at h
          cases h
      | unlock m => cases h
      | access r => cases h

/-- If nobody can go on, then behind a thread that waits there is one that waits for a mutex of a
greater rank. -/
theorem WellLocked.exists_wanted_gt (h : WellLocked rank guard threads)
    (hstuck : ∀ t ∈ threads, t.rest ≠ [] → advance threads t = none) (ht : t ∈ threads)
    (hrest : t.rest ≠ []) :
    ∃ u ∈ threads, u.rest ≠ [] ∧ wanted rank t < wanted rank u := by
  obtain ⟨m, rest, hm, hnotFree⟩ := lock_of_advance_eq_none hrest (hstuck t ht hrest)
  -- the mutex is held by a thread, which is in a call, and cannot go on either
  simp only [Free, not_forall, not_not] at hnotFree
  obtain ⟨u, hu, hheld⟩ := hnotFree
  have hurest : u.rest ≠ [] := by
    intro hnil
    rw [held_eq_nil (h.disciplined u hu) hnil] at hheld
    cases hheld
  obtain ⟨k, rest', hk, -⟩ := lock_of_advance_eq_none hurest (hstuck u hu hurest)
  have hrun := h.disciplined u hu
  rw [hk] at hrun
  obtain ⟨held', hheld', -⟩ := hold_of_run hrun
  refine ⟨u, hu, hurest, ?_⟩
  rw [wanted, hm, wanted, hk]
  exact (rank_lt_of_hold hheld').1 m hheld

/-- **There is no deadlock**: as long as a thread is in a call, one of them can go on. -/
theorem WellLocked.exists_advance (h : WellLocked rank guard threads)
    (hbusy : ∃ t ∈ threads, t.rest ≠ []) :
    ∃ (i : ℕ) (t t' : Thread μ ρ), threads[i]? = some t ∧ advance threads t = some t' := by
  by_contra hnone
  have hstuck : ∀ t ∈ threads, t.rest ≠ [] → advance threads t = none := by
    intro t ht _
    obtain ⟨i, hi⟩ := List.mem_iff_getElem?.1 ht
    cases hadvance : advance threads t with
    | none => rfl
    | some t' => exact absurd ⟨i, t, t', hi, hadvance⟩ hnone
  -- the ranks that are waited for would be unbounded
  have hunbounded : ∀ n, ∃ t ∈ threads, t.rest ≠ [] ∧ n ≤ wanted rank t := by
    intro n
    induction n with
    | zero =>
        obtain ⟨t, ht, hrest⟩ := hbusy
        exact ⟨t, ht, hrest, Nat.zero_le _⟩
    | succ n ih =>
        obtain ⟨t, ht, hrest, hle⟩ := ih
        obtain ⟨u, hu, hurest, hlt⟩ := h.exists_wanted_gt hstuck ht hrest
        exact ⟨u, hu, hurest, by omega⟩
  obtain ⟨t, ht, -, hle⟩ := hunbounded ((threads.map (wanted rank)).sum + 1)
  have := List.single_le_sum (l := threads.map (wanted rank)) (fun _ _ => Nat.zero_le _) _
    (List.mem_map_of_mem ht)
  omega

/-- What is left of all calls. -/
def remaining (threads : List (Thread μ ρ)) : ℕ := (threads.map (·.rest.length)).sum

theorem length_rest_of_advance (h : advance threads t = some t') :
    t'.rest.length + 1 = t.rest.length := by
  obtain ⟨held, rest⟩ := t
  cases rest with
  | nil => cases h
  | cons e rest =>
      cases e with
      | lock m =>
          simp only [advance] at h
          split at h
          · obtain rfl := Option.some.inj h
            rfl
          · cases h
      | unlock m =>
          obtain rfl := Option.some.inj h
          rfl
      | access r =>
          obtain rfl := Option.some.inj h
          rfl

/-- **All calls can come to their end**, whatever the threads are doing. -/
theorem WellLocked.completes (h : WellLocked rank guard threads) :
    ∃ (order : List ℕ) (threads' : List (Thread μ ρ)),
      run step threads (order.map Action.advance) = some threads' ∧
        ∀ t ∈ threads', t.rest = [] := by
  obtain ⟨n, hn⟩ : ∃ n, remaining threads = n := ⟨_, rfl⟩
  induction n generalizing threads with
  | zero =>
      refine ⟨[], threads, rfl, fun t ht => ?_⟩
      have := List.single_le_sum (l := threads.map (·.rest.length)) (fun _ _ => Nat.zero_le _) _
        (List.mem_map_of_mem ht)
      rw [← remaining, hn] at this
      exact List.eq_nil_of_length_eq_zero (Nat.le_zero.1 this)
  | succ n ih =>
      by_cases hbusy : ∃ t ∈ threads, t.rest ≠ []
      · obtain ⟨i, t, t', hi, hadvance⟩ := h.exists_advance hbusy
        have hstep : step threads (.advance i) = some (threads.set i t') := by
          simp only [step, hi, hadvance, Option.map_some]
        have hremaining : remaining (threads.set i t') + 1 = remaining threads :=
          sum_map_set_add_one hi (length_rest_of_advance hadvance)
        obtain ⟨order, threads', hrun, hdone⟩ := ih (h.next (fun _ _ ha => by cases ha) hstep)
          (by omega)
        exact ⟨i :: order, threads', run_cons.2 ⟨_, hstep, hrun⟩, hdone⟩
      · refine ⟨[], threads, rfl, fun t ht => ?_⟩
        by_contra hrest
        exact hbusy ⟨t, ht, hrest⟩

end Discipline

end Locks
