/-
**Threads that wait for conditions.**

A call that waits for a condition falls into parts: what it does until it waits, and what it does
behind each wait.  The last event of a part unlocks the mutex of the condition, and the first one of
the next part locks it again; as soon as a part is over the thread waits, so no signal is lost in
between.  A signal is an access to something that is shared.  It wakes at least one of the threads
that wait for its condition, and a broadcast wakes all of them.  Some waits end by themselves, and a
thread may wake up without a cause.

The mutexes are those of `AwsS3fs/Lib/Locks.lean`.

Main definitions:

* `Waits.Course`, `Waits.Waiter` — a call in parts, and a thread that is in one;
* `Waits.Signals` — what signals a condition, and which waits end by themselves;
* `Waits.step` — a thread begins a call, does what comes next, goes on behind a wait, or wakes up
  without a cause;
* `Waits.Orderly` — the invariant of threads whose calls keep to the order of the mutexes.

Main results:

* `Waits.orderly_of_run` — the invariant holds after every run;
* `Waits.Orderly.exists_advance` — **a thread that waits for a mutex does not wait for ever**: as
  long as a thread is in a part of a call, one of them can go on;
* `Waits.Orderly.completes` — all calls can come to their end, or to a wait for a condition that
  nobody has signalled, and nobody has to wake up without a cause.
-/

import AwsS3fs.Lib.Locks

set_option relaxedAutoImplicit false
set_option autoImplicit false

namespace Waits

open Runs Threads Locks

/-! ### Threads that wait -/

/-- A call: what it does until its first wait, and the conditions that it waits for, with what it
does behind each of them. -/
structure Course (μ ρ κ : Type*) where
  first : List (Event μ ρ)
  later : List (κ × List (Event μ ρ))

/-- A thread, what is left of its call behind the part that it is in, and whether it has been woken
since it waits. -/
structure Waiter (μ ρ κ : Type*) where
  thread : Thread μ ρ
  later : List (κ × List (Event μ ρ))
  woken : Bool

/-- Which access signals a condition, which conditions are signalled with a broadcast, and which
ones are waited for with a time limit. -/
structure Signals (ρ κ : Type*) where
  signalled : ρ → Option κ
  broadcast : κ → Bool
  timed : κ → Bool

variable {μ ρ κ : Type*}

/-- A thread that is in no call. -/
def Waiter.idle : Waiter μ ρ κ := ⟨.idle, [], false⟩

/-- The mutexes that threads hold, and what they do next. -/
def threads (waiters : List (Waiter μ ρ κ)) : List (Thread μ ρ) := waiters.map (·.thread)

/-- Threads are woken. -/
def wake (waiters : List (Waiter μ ρ κ)) (woken : List ℕ) : List (Waiter μ ρ κ) :=
  waiters.mapIdx fun j w => { w with woken := w.woken || woken.contains j }

/-- What happens. -/
inductive Action (μ ρ κ : Type*)
  /-- A thread that is in no call begins one. -/
  | begin (i : ℕ) (call : Course μ ρ κ)
  /-- A thread does what comes next in its call, and the threads at some places are woken. -/
  | advance (i : ℕ) (woken : List ℕ)
  /-- A thread goes on behind a wait. -/
  | resume (i : ℕ)
  /-- A thread that waits wakes up without a cause. -/
  | spurious (i : ℕ)

/-- A thread goes on in its call, and with a cause. -/
def Action.Continues : Action μ ρ κ → Prop
  | .advance _ _ | .resume _ => True
  | .begin _ _ | .spurious _ => False

/-- A thread has come to the end of its call, or to a wait that nobody has ended. -/
def Waiter.Halted (signals : Signals ρ κ) (w : Waiter μ ρ κ) : Prop :=
  w.thread.rest = [] ∧ ∀ part ∈ w.later.head?, w.woken = false ∧ signals.timed part.1 = false

section Waking

variable [DecidableEq κ]

/-- A thread waits for a condition, and has not been woken. -/
def Waiter.waitsFor (w : Waiter μ ρ κ) (c : κ) : Bool :=
  w.thread.rest.isEmpty && w.later.head?.any (·.1 = c) && !w.woken

namespace Signals

variable (signals : Signals ρ κ)

/-- The condition that the next event of a thread signals. -/
def next (t : Thread μ ρ) : Option κ :=
  match t.rest with
  | .access r :: _ => signals.signalled r
  | _ => none

/-- The threads at these places may be the ones that the next event of a thread wakes. -/
def wakes (waiters : List (Waiter μ ρ κ)) (t : Thread μ ρ) (woken : List ℕ) : Bool :=
  match signals.next t with
  | none => woken.isEmpty
  | some c =>
      let waiting := (List.range waiters.length).filter fun j => waiters[j]?.any (·.waitsFor c)
      woken.all waiting.contains && (waiting.isEmpty || !woken.isEmpty) &&
        (!signals.broadcast c || waiting.all woken.contains)

end Signals

/-- A thread can wake all that wait for the condition which it signals. -/
theorem exists_wakes (signals : Signals ρ κ) (waiters : List (Waiter μ ρ κ)) (t : Thread μ ρ) :
    ∃ woken, signals.wakes waiters t woken = true := by
  cases hnext : signals.next t with
  | none => exact ⟨[], by simp [Signals.wakes, hnext]⟩
  | some c =>
      refine ⟨(List.range waiters.length).filter fun j => waiters[j]?.any (·.waitsFor c), ?_⟩
      simp only [Signals.wakes, hnext]
      generalize (List.range waiters.length).filter _ = waiting
      have hall : waiting.all waiting.contains = true := by
        rw [List.all_eq_true]
        exact fun j hj => List.contains_iff_mem.2 hj
      rw [hall, Bool.or_not_self, Bool.or_true]
      rfl

end Waking

/-- One step of one thread. -/
def step [DecidableEq μ] [DecidableEq κ] (signals : Signals ρ κ) (waiters : List (Waiter μ ρ κ)) :
    Action μ ρ κ → Option (List (Waiter μ ρ κ))
  | .begin i call =>
      match waiters[i]? with
      | none => none
      | some w =>
          if w.thread.rest.isEmpty && w.later.isEmpty then
            some (waiters.set i ⟨{ w.thread with rest := call.first }, call.later, false⟩)
          else none
  | .advance i woken =>
      match waiters[i]? with
      | none => none
      | some w =>
          if signals.wakes waiters w.thread woken then
            (advance (threads waiters) w.thread).map fun t =>
              wake (waiters.set i { w with thread := t }) woken
          else none
  | .resume i =>
      match waiters[i]? with
      | none => none
      | some w =>
          match w.later with
          | [] => none
          | (c, events) :: later =>
              if w.thread.rest.isEmpty && (w.woken || signals.timed c) then
                some (waiters.set i ⟨{ w.thread with rest := events }, later, false⟩)
              else none
  | .spurious i =>
      match waiters[i]? with
      | none => none
      | some w =>
          if w.thread.rest.isEmpty && !w.later.isEmpty then some (wake waiters [i]) else none

/-! ### Calls in parts -/

variable {rank : μ → ℕ} {guard : ρ → μ} {signals : Signals ρ κ}
  {waiters waiters' : List (Waiter μ ρ κ)} {w w' : Waiter μ ρ κ} {i : ℕ}

theorem threads_set (waiters : List (Waiter μ ρ κ)) (i : ℕ) (w : Waiter μ ρ κ) :
    threads (waiters.set i w) = (threads waiters).set i w.thread := List.map_set

theorem getElem?_threads (hi : waiters[i]? = some w) : (threads waiters)[i]? = some w.thread := by
  rw [threads, List.getElem?_map, hi, Option.map_some]

/-- Who is woken holds and does what he did. -/
theorem map_wake {β : Type*} (f : Waiter μ ρ κ → β) (hf : ∀ w woken, f { w with woken } = f w)
    (waiters : List (Waiter μ ρ κ)) (woken : List ℕ) :
    (wake waiters woken).map f = waiters.map f := by
  refine List.ext_getElem? fun j => ?_
  rw [wake, List.getElem?_map, List.getElem?_mapIdx, List.getElem?_map, Option.map_map]
  congr 1
  exact funext fun w => hf w _

theorem threads_wake (waiters : List (Waiter μ ρ κ)) (woken : List ℕ) :
    threads (wake waiters woken) = threads waiters := map_wake _ (fun _ _ => rfl) _ _

theorem exists_later_eq_of_mem_wake {woken : List ℕ} (hw : w ∈ wake waiters woken) :
    ∃ v ∈ waiters, v.later = w.later := by
  have hlater : w.later ∈ (wake waiters woken).map (·.later) := List.mem_map_of_mem hw
  rw [map_wake _ (fun _ _ => rfl)] at hlater
  exact List.mem_map.1 hlater

/-- What is left of the call of a thread, with its waits. -/
def weight (w : Waiter μ ρ κ) : ℕ :=
  w.thread.rest.length + (w.later.map fun part => part.2.length + 1).sum

/-- What is left of all calls. -/
def remaining (waiters : List (Waiter μ ρ κ)) : ℕ := (waiters.map weight).sum

/-! ### The invariant -/

variable [DecidableEq μ]

/-- **Every part of a call keeps to the order of the mutexes**, and holds nothing in the end. -/
def Course.Disciplined (rank : μ → ℕ) (guard : ρ → μ) (call : Course μ ρ κ) : Prop :=
  Locks.Disciplined rank guard call.first ∧
    ∀ part ∈ call.later, Locks.Disciplined rank guard part.2

/-- What is left of every call keeps to the order, and no mutex is held by two threads. -/
structure Orderly (rank : μ → ℕ) (guard : ρ → μ) (waiters : List (Waiter μ ρ κ)) : Prop where
  locked : WellLocked rank guard (threads waiters)
  later : ∀ w ∈ waiters, ∀ part ∈ w.later, Locks.Disciplined rank guard part.2

theorem orderly_idle (n : ℕ) :
    Orderly rank guard (List.replicate n (Waiter.idle : Waiter μ ρ κ)) where
  locked := by
    rw [threads, List.map_replicate]
    exact wellLocked_idle n
  later w hw part hpart := by
    rw [List.eq_of_mem_replicate hw] at hpart
    cases hpart

namespace Orderly

/-- A part of a call begins. -/
theorem enter (h : Orderly rank guard waiters) (hi : waiters[i]? = some w)
    (hrest : w.thread.rest.isEmpty = true) {events : List (Event μ ρ)}
    {later : List (κ × List (Event μ ρ))} (hevents : Locks.Disciplined rank guard events)
    (hlater : ∀ part ∈ later, Locks.Disciplined rank guard part.2) :
    Orderly rank guard (waiters.set i ⟨{ w.thread with rest := events }, later, false⟩) where
  locked := by
    have hthread := h.locked.disciplined w.thread
      (List.mem_map_of_mem (List.mem_of_getElem? hi))
    rw [threads_set]
    refine h.locked.set (getElem?_threads hi) ?_ fun m hm => .inl hm
    rw [held_eq_nil hthread (List.isEmpty_iff.1 hrest)]
    exact hevents
  later v hv part hpart := by
    rcases List.mem_or_eq_of_mem_set hv with hv | rfl
    · exact h.later v hv part hpart
    · exact hlater part hpart

/-- Threads are woken. -/
theorem afterWake (h : Orderly rank guard waiters) (woken : List ℕ) :
    Orderly rank guard (wake waiters woken) where
  locked := by
    rw [threads_wake]
    exact h.locked
  later v hv part hpart := by
    obtain ⟨u, hu, hlater⟩ := exists_later_eq_of_mem_wake hv
    rw [← hlater] at hpart
    exact h.later u hu part hpart

end Orderly

variable [DecidableEq κ]

namespace Orderly

/-- One step keeps the invariant. -/
theorem next (h : Orderly rank guard waiters) {a : Action μ ρ κ}
    (ha : ∀ i call, a = .begin i call → call.Disciplined rank guard)
    (hstep : step signals waiters a = some waiters') : Orderly rank guard waiters' := by
  cases a with
  | begin i call =>
      simp only [step] at hstep
      split at hstep
      · cases hstep
      · rename_i w hi
        split at hstep
        · rename_i hidle
          obtain rfl := Option.some.inj hstep
          obtain ⟨hfirst, hlater⟩ := ha i call rfl
          exact h.enter hi (Bool.and_eq_true_iff.1 hidle).1 hfirst hlater
        · cases hstep
  | advance i woken =>
      simp only [step] at hstep
      split at hstep
      · cases hstep
      · rename_i w hi
        split at hstep
        · obtain ⟨t, ht, rfl⟩ := Option.map_eq_some_iff.1 hstep
          have hmem := List.mem_of_getElem? hi
          obtain ⟨hrun, hheld⟩ :=
            advance_spec (h.locked.disciplined w.thread (List.mem_map_of_mem hmem)) ht
          refine Orderly.afterWake ⟨?_, fun u hu part hpart => ?_⟩ woken
          · rw [threads_set]
            exact h.locked.set (getElem?_threads hi) hrun hheld
          · rcases List.mem_or_eq_of_mem_set hu with hu | rfl
            · exact h.later u hu part hpart
            · exact h.later w hmem part hpart
        · cases hstep
  | resume i =>
      simp only [step] at hstep
      split at hstep
      · cases hstep
      · rename_i w hi
        split at hstep
        · cases hstep
        · rename_i c events later hlater
          have hparts := h.later w (List.mem_of_getElem? hi)
          rw [hlater] at hparts
          obtain ⟨hevents, hrest⟩ := List.forall_mem_cons.1 hparts
          split at hstep
          · rename_i hgoes
            obtain rfl := Option.some.inj hstep
            exact h.enter hi (Bool.and_eq_true_iff.1 hgoes).1 hevents hrest
          · cases hstep
  | spurious i =>
      simp only [step] at hstep
      split at hstep
      · cases hstep
      · split at hstep
        · obtain rfl := Option.some.inj hstep
          exact h.afterWake [i]
        · cases hstep

end Orderly

/-- **The invariant holds after every run** whose calls keep to the order of the mutexes. -/
theorem orderly_of_run {actions : List (Action μ ρ κ)} (h : Orderly rank guard waiters)
    (hcalls : ∀ i call, .begin i call ∈ actions → call.Disciplined rank guard)
    (hrun : run (step signals) waiters actions = some waiters') : Orderly rank guard waiters' := by
  refine run_inv
    (C := fun _ a _ => ∀ i call, a = .begin i call → Course.Disciplined rank guard call)
    (fun s a s' hs ha hstep => hs.next ha hstep) h (along_of_forall ?_) hrun
  rintro a ha _ _ i call rfl
  exact hcalls i call ha

/-! ### Progress -/

/-- A thread that goes on has less left. -/
theorem remaining_step {a : Action μ ρ κ} (ha : a.Continues)
    (hstep : step signals waiters a = some waiters') :
    remaining waiters' + 1 = remaining waiters := by
  cases a with
  | begin i call => exact ha.elim
  | spurious i => exact ha.elim
  | advance i woken =>
      simp only [step] at hstep
      split at hstep
      · cases hstep
      · rename_i w hi
        split at hstep
        · obtain ⟨t, ht, rfl⟩ := Option.map_eq_some_iff.1 hstep
          rw [remaining, map_wake _ (fun _ _ => rfl)]
          refine sum_map_set_add_one hi ?_
          have hlength := length_rest_of_advance ht
          simp only [weight]
          omega
        · cases hstep
  | resume i =>
      simp only [step] at hstep
      split at hstep
      · cases hstep
      · rename_i w hi
        split at hstep
        · cases hstep
        · rename_i c events later hlater
          split at hstep
          · rename_i hgoes
            obtain rfl := Option.some.inj hstep
            refine sum_map_set_add_one hi ?_
            have hrest := List.isEmpty_iff.1 (Bool.and_eq_true_iff.1 hgoes).1
            simp only [weight, hlater, hrest, List.length_nil, List.map_cons, List.sum_cons]
            omega
          · cases hstep

namespace Orderly

/-- **As long as a thread is in a part of a call, one of them can go on.** -/
theorem exists_advance (h : Orderly rank guard waiters)
    (hbusy : ∃ w ∈ waiters, w.thread.rest ≠ []) :
    ∃ (i : ℕ) (woken : List ℕ) (waiters' : List (Waiter μ ρ κ)),
      step signals waiters (.advance i woken) = some waiters' := by
  obtain ⟨w, hw, hrest⟩ := hbusy
  obtain ⟨i, t, t', hi, hadvance⟩ :=
    h.locked.exists_advance ⟨w.thread, List.mem_map_of_mem hw, hrest⟩
  rw [threads, List.getElem?_map] at hi
  obtain ⟨v, hv, rfl⟩ := Option.map_eq_some_iff.1 hi
  obtain ⟨woken, hwoken⟩ := exists_wakes signals waiters v.thread
  refine ⟨i, woken, wake (waiters.set i { v with thread := t' }) woken, ?_⟩
  simp only [step, hv, if_pos hwoken, hadvance, Option.map_some]

/-- Some thread goes on, or all have come to an end or to a wait. -/
theorem exists_step_or_halted (h : Orderly rank guard waiters) (signals : Signals ρ κ) :
    (∃ (a : Action μ ρ κ) (waiters' : List (Waiter μ ρ κ)), a.Continues ∧
      step signals waiters a = some waiters') ∨ ∀ w ∈ waiters, w.Halted signals := by
  by_cases hbusy : ∃ w ∈ waiters, w.thread.rest ≠ []
  · obtain ⟨i, woken, waiters', hstep⟩ := h.exists_advance hbusy
    exact .inl ⟨.advance i woken, waiters', trivial, hstep⟩
  · have hrest : ∀ w ∈ waiters, w.thread.rest = [] := fun w hw => by
      by_contra hne
      exact hbusy ⟨w, hw, hne⟩
    refine or_iff_not_imp_left.2 fun hnone w hw => ⟨hrest w hw, fun part hpart => ?_⟩
    by_contra hgoes
    obtain ⟨i, hi⟩ := List.mem_iff_getElem?.1 hw
    obtain ⟨later, hlater⟩ := List.head?_eq_some_iff.1 hpart
    obtain ⟨c, events⟩ := part
    have hresume : (w.thread.rest.isEmpty && (w.woken || signals.timed c)) = true := by
      rw [List.isEmpty_iff.2 (hrest w hw), Bool.true_and]
      by_contra hfalse
      exact hgoes (Bool.or_eq_false_iff.1 (Bool.eq_false_iff.2 hfalse))
    refine hnone ⟨.resume i, waiters.set i ⟨{ w.thread with rest := events }, later, false⟩,
      trivial, ?_⟩
    simp only [step, hi, hlater, if_pos hresume]

/-- **All calls can come to their end, or to a wait for a condition that nobody has signalled**, and
every step has a cause. -/
theorem completes (h : Orderly rank guard waiters) (signals : Signals ρ κ) :
    ∃ (order : List (Action μ ρ κ)) (waiters' : List (Waiter μ ρ κ)),
      (∀ a ∈ order, a.Continues) ∧ run (step signals) waiters order = some waiters' ∧
        ∀ w ∈ waiters', w.Halted signals := by
  obtain ⟨n, hn⟩ : ∃ n, remaining waiters = n := ⟨_, rfl⟩
  induction n generalizing waiters with
  | zero =>
      rcases h.exists_step_or_halted signals with ⟨a, waiters', ha, hstep⟩ | hhalted
      · have := remaining_step ha hstep
        omega
      · exact ⟨[], waiters, nofun, rfl, hhalted⟩
  | succ n ih =>
      rcases h.exists_step_or_halted signals with ⟨a, waiters', ha, hstep⟩ | hhalted
      · have hremaining := remaining_step ha hstep
        have hnext := h.next (by rintro i call rfl; exact ha.elim) hstep
        obtain ⟨order, waiters'', horder, hrun, hhalted⟩ := ih hnext (by omega)
        exact ⟨a :: order, waiters'', List.forall_mem_cons.2 ⟨ha, horder⟩,
          run_cons.2 ⟨_, hstep, hrun⟩, hhalted⟩
      · exact ⟨[], waiters, nofun, rfl, hhalted⟩

end Orderly

end Waits
