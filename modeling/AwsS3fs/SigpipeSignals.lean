/-
**The signal of a write to a client that has gone.**

A write to a connection whose other end is closed sends `SIGPIPE` to the thread that writes, and the
signal ends the whole daemon unless the thread blocks it.  `SendMessageToClient` of `filecache.c`
therefore blocks the signal around its write: `BlockSigpipeSignal` looks whether one is pending, and
otherwise blocks it and notes the old mask; `RestoreSigpipeSignal` takes a signal that has come in
the meantime, and goes back to the old mask.  Between any two of these system calls other threads
run, and `SIGPIPE` can be sent to the process from outside, which every thread that does not block
it can receive.

Main definitions:

* `Sigpipe.SendPoint` — the system call of `SendMessageToClient` that comes next;
* `Sigpipe.step` — a system call of one of any number of threads, and what the kernel makes of it.

Main results:

* `Sigpipe.Contained.step` — what holds of the mask and the pending signal of every thread;
* `Sigpipe.sigpipe_contained` — **a client that hangs up does not end the daemon**, and leaves no
  trace in the thread that writes to it.
-/

import AwsS3fs.Lib.Runs
import AwsS3fs.Lib.Threads

set_option relaxedAutoImplicit false
set_option autoImplicit false

namespace AwsS3fs.Sigpipe

open Runs Threads

/-! ### Threads that write -/

/-- The system call that comes next; `wasPending` and `wasBlocked` have the values that
`BlockSigpipeSignal` gives them. -/
inductive SendPoint
  /-- The thread is not in `SendMessageToClient`. -/
  | outside
  /-- `sigpending` in `BlockSigpipeSignal`. -/
  | sigpending
  /-- `pthread_sigmask( SIG_BLOCK )`. -/
  | block
  /-- `write`.  With a signal that was pending `wasBlocked` is not set, and has any value. -/
  | write (wasPending wasBlocked : Bool)
  /-- `sigpending` in `RestoreSigpipeSignal`. -/
  | check (wasPending wasBlocked : Bool)
  /-- `sigtimedwait`. -/
  | timedWait (wasBlocked : Bool)
  /-- `pthread_sigmask( SIG_UNBLOCK )`. -/
  | unblock (wasBlocked : Bool)
deriving DecidableEq, Repr

/-- What concerns `SIGPIPE` in a thread. -/
structure Writer where
  /-- The thread blocks the signal. -/
  blocked : Bool
  /-- The signal is pending for this thread. -/
  pending : Bool
  point : SendPoint
deriving DecidableEq, Repr

/-- The threads of the daemon. -/
structure Daemon where
  threads : List Writer
  /-- The signal is pending for the process. -/
  pending : Bool
  alive : Bool
deriving DecidableEq, Repr

/-- What a system call gives. -/
structure Outcome where
  /-- The client has gone. -/
  brokenPipe : Bool
  /-- `sigtimedwait` is interrupted. -/
  interrupted : Bool
  /-- What an unset variable holds. -/
  unset : Bool
deriving DecidableEq, Repr

/-- What happens. -/
inductive SigpipeAction
  /-- Someone sends `SIGPIPE` to the process. -/
  | kill
  /-- A thread starts another one, which has the mask of the first. -/
  | create (creator : ℕ)
  /-- A thread calls `SendMessageToClient`. -/
  | send (i : ℕ)
  /-- A thread makes its next system call. -/
  | advance (i : ℕ) (outcome : Outcome)
deriving DecidableEq, Repr

/-- The next system call of a thread, with what is pending for the process before and after. -/
def advance (pending : Bool) (t : Writer) (outcome : Outcome) : Option (Writer × Bool) :=
  match t.point with
  | .outside => none
  | .sigpending =>
      if t.blocked && (t.pending || pending) then
        some ({ t with point := .write true outcome.unset }, pending)
      else some ({ t with point := .block }, pending)
  | .block => some ({ t with blocked := true, point := .write false (! t.blocked) }, pending)
  | .write wasPending wasBlocked =>
      some ({ t with
        pending := t.pending || outcome.brokenPipe
        point := .check wasPending wasBlocked }, pending)
  | .check wasPending wasBlocked =>
      if wasPending then some ({ t with point := .outside }, pending)
      else if t.blocked && (t.pending || pending) then
        some ({ t with point := .timedWait wasBlocked }, pending)
      else some ({ t with point := .unblock wasBlocked }, pending)
  | .timedWait wasBlocked =>
      if outcome.interrupted then some (t, pending)
      -- the signal of the thread is taken before the one of the process
      else if t.pending then
        some ({ t with pending := false, point := .unblock wasBlocked }, pending)
      else some ({ t with point := .unblock wasBlocked }, false)
  | .unblock wasBlocked =>
      some ({ t with blocked := t.blocked && ! wasBlocked, point := .outside }, pending)

namespace Daemon

/-- A pending signal that is not blocked ends the process. -/
def deliver (d : Daemon) : Daemon :=
  if d.threads.any (fun t => ! t.blocked && (t.pending || d.pending)) then { d with alive := false }
  else d

end Daemon

/-- One step of the daemon. -/
def step (d : Daemon) (a : SigpipeAction) : Option Daemon :=
  if ! d.alive then none
  else
    match a with
    | .kill => some ({ d with pending := true } : Daemon).deliver
    | .create creator =>
        match d.threads[creator]? with
        | none => none
        | some t =>
            if t.point = .outside then
              some { d with threads := d.threads ++ [⟨t.blocked, false, .outside⟩] }
            else none
    | .send i =>
        match d.threads[i]? with
        | none => none
        | some t =>
            if t.point = .outside then
              some { d with threads := d.threads.set i { t with point := .sigpending } }
            else none
    | .advance i outcome =>
        match d.threads[i]? with
        | none => none
        | some t =>
            match advance d.pending t outcome with
            | none => none
            | some (t', pending) =>
                some ({ d with threads := d.threads.set i t', pending := pending } : Daemon).deliver

/-! ### The mask and the pending signal of a thread -/

/-- What holds of a thread of a daemon that was started with the mask `mask`. -/
def Writer.Contained (mask : Bool) (t : Writer) : Prop :=
  match t.point with
  | .outside | .sigpending => t.blocked = mask ∧ (t.pending = true → mask = true)
  | .block => t.blocked = mask ∧ t.pending = false
  | .write wasPending wasBlocked =>
      t.blocked = true ∧ if wasPending then mask = true else wasBlocked = ! mask ∧ t.pending = false
  | .check wasPending wasBlocked =>
      t.blocked = true ∧ if wasPending then mask = true else wasBlocked = ! mask
  | .timedWait wasBlocked => t.blocked = true ∧ wasBlocked = ! mask
  | .unblock wasBlocked => t.blocked = true ∧ wasBlocked = ! mask ∧ t.pending = false

variable {mask : Bool} {t t' : Writer} {d d' : Daemon} {outcome : Outcome}

/-- A signal that is pending for a thread is blocked. -/
theorem Writer.Contained.blocked (h : t.Contained mask) (hpending : t.pending = true) :
    t.blocked = true := by
  obtain ⟨blocked, pending, point⟩ := t
  subst hpending
  cases point with
  | outside | sigpending => exact h.1.trans (h.2 rfl)
  | block => cases h.2
  | write | check | timedWait => exact h.1
  | unblock => cases h.2.2

theorem Writer.Contained.advance {pending pending' : Bool} (h : t.Contained mask)
    (hstep : Sigpipe.advance pending t outcome = some (t', pending')) : t'.Contained mask := by
  obtain ⟨blocked, own, point⟩ := t
  cases point with
  | outside => cases hstep
  | sigpending =>
      obtain ⟨hmask, hown⟩ := h
      simp only [Sigpipe.advance] at hstep
      split at hstep
      · rename_i hpending
        obtain ⟨rfl, -⟩ := Prod.mk.inj (Option.some.inj hstep)
        have hblocked : blocked = true := (Bool.and_eq_true _ _ ▸ hpending).1
        exact ⟨hblocked, (hmask.symm.trans hblocked)⟩
      · rename_i hpending
        obtain ⟨rfl, -⟩ := Prod.mk.inj (Option.some.inj hstep)
        refine ⟨hmask, ?_⟩
        cases own with
        | false => rfl
        | true =>
            refine absurd ?_ hpending
            rw [show blocked = true from hmask.trans (hown rfl)]
            rfl
  | block =>
      obtain ⟨rfl, hown⟩ := h
      obtain ⟨rfl, -⟩ := Prod.mk.inj (Option.some.inj hstep)
      exact ⟨rfl, rfl, hown⟩
  | write wasPending wasBlocked =>
      obtain ⟨rfl, -⟩ := Prod.mk.inj (Option.some.inj hstep)
      cases wasPending with
      | true => exact h
      | false => exact ⟨h.1, h.2.1⟩
  | check wasPending wasBlocked =>
      obtain ⟨rfl, hwas⟩ := h
      cases wasPending with
      | true =>
          obtain ⟨rfl, -⟩ := Prod.mk.inj (Option.some.inj hstep)
          exact ⟨(show mask = true from hwas).symm, fun _ => hwas⟩
      | false =>
          simp only [Sigpipe.advance, Bool.false_eq_true, if_false] at hstep
          split at hstep
          · obtain ⟨rfl, -⟩ := Prod.mk.inj (Option.some.inj hstep)
            exact ⟨rfl, hwas⟩
          · rename_i hpending
            obtain ⟨rfl, -⟩ := Prod.mk.inj (Option.some.inj hstep)
            refine ⟨rfl, hwas, ?_⟩
            cases own with
            | false => rfl
            | true => exact absurd rfl hpending
  | timedWait wasBlocked =>
      obtain ⟨rfl, hwas⟩ := h
      simp only [Sigpipe.advance] at hstep
      split at hstep
      · obtain ⟨rfl, -⟩ := Prod.mk.inj (Option.some.inj hstep)
        exact ⟨rfl, hwas⟩
      · split at hstep
        · obtain ⟨rfl, -⟩ := Prod.mk.inj (Option.some.inj hstep)
          exact ⟨rfl, hwas, rfl⟩
        · rename_i hown
          obtain ⟨rfl, -⟩ := Prod.mk.inj (Option.some.inj hstep)
          exact ⟨rfl, hwas, by simpa using hown⟩
  | unblock wasBlocked =>
      obtain ⟨rfl, rfl, rfl⟩ := h
      obtain ⟨rfl, -⟩ := Prod.mk.inj (Option.some.inj hstep)
      refine ⟨?_, fun htrue => by cases htrue⟩
      cases mask with
      | true | false => rfl

/-! ### Without signals from outside -/

/-- What holds of a thread if nobody sends the signal: it is pending only from the write to the
point at which it is taken. -/
def Writer.Quiet (t : Writer) : Prop :=
  match t.point with
  | .write wasPending _ => wasPending = false ∧ t.pending = false
  | .check wasPending _ => wasPending = false
  | .timedWait _ => True
  | _ => t.pending = false

theorem Writer.Quiet.advance {pending' : Bool} (h : t.Quiet) (hcontained : t.Contained mask)
    (hstep : Sigpipe.advance false t outcome = some (t', pending')) :
    t'.Quiet ∧ pending' = false := by
  obtain ⟨blocked, own, point⟩ := t
  cases point with
  | outside => cases hstep
  | sigpending =>
      obtain rfl : own = false := h
      simp only [Sigpipe.advance, Bool.or_false, Bool.and_false, Bool.false_eq_true,
        if_false] at hstep
      obtain ⟨rfl, rfl⟩ := Prod.mk.inj (Option.some.inj hstep)
      exact ⟨rfl, rfl⟩
  | block =>
      obtain rfl : own = false := h
      obtain ⟨rfl, rfl⟩ := Prod.mk.inj (Option.some.inj hstep)
      exact ⟨⟨rfl, rfl⟩, rfl⟩
  | write wasPending wasBlocked =>
      obtain ⟨rfl, rfl⟩ := Prod.mk.inj (Option.some.inj hstep)
      exact ⟨h.1, rfl⟩
  | check wasPending wasBlocked =>
      obtain rfl : wasPending = false := h
      simp only [Sigpipe.advance, Bool.false_eq_true, if_false] at hstep
      split at hstep
      · obtain ⟨rfl, rfl⟩ := Prod.mk.inj (Option.some.inj hstep)
        exact ⟨trivial, rfl⟩
      · rename_i hpending
        obtain ⟨rfl, rfl⟩ := Prod.mk.inj (Option.some.inj hstep)
        obtain rfl : blocked = true := hcontained.1
        exact ⟨by simpa [Writer.Quiet] using hpending, rfl⟩
  | timedWait wasBlocked =>
      simp only [Sigpipe.advance] at hstep
      split at hstep
      · obtain ⟨rfl, rfl⟩ := Prod.mk.inj (Option.some.inj hstep)
        exact ⟨trivial, rfl⟩
      · split at hstep
        · obtain ⟨rfl, rfl⟩ := Prod.mk.inj (Option.some.inj hstep)
          exact ⟨rfl, rfl⟩
        · rename_i hown
          obtain ⟨rfl, rfl⟩ := Prod.mk.inj (Option.some.inj hstep)
          exact ⟨by simpa [Writer.Quiet] using hown, rfl⟩
  | unblock wasBlocked =>
      obtain ⟨rfl, rfl⟩ := Prod.mk.inj (Option.some.inj hstep)
      exact ⟨h, rfl⟩

/-! ### The daemon -/

/-- **What holds of the daemon**: every thread has its mask under control, and only a signal to the
process ends it. -/
structure Daemon.Contained (mask : Bool) (d : Daemon) : Prop where
  threads : ∀ t ∈ d.threads, t.Contained mask
  ended : d.alive = false → d.pending = true

/-- No signal is on its way but that of a write. -/
structure Daemon.Quiet (d : Daemon) : Prop where
  pending : d.pending = false
  threads : ∀ t ∈ d.threads, t.Quiet

@[simp]
theorem Daemon.threads_deliver (d : Daemon) : d.deliver.threads = d.threads := by
  rw [Daemon.deliver]
  split <;> rfl

@[simp]
theorem Daemon.pending_deliver (d : Daemon) : d.deliver.pending = d.pending := by
  rw [Daemon.deliver]
  split <;> rfl

theorem Daemon.contained_deliver (hthreads : ∀ t ∈ d.threads, t.Contained mask)
    (halive : d.alive = true) : d.deliver.Contained mask := by
  refine ⟨fun t ht => hthreads t (by simpa using ht), fun hended => ?_⟩
  rw [pending_deliver]
  rw [Daemon.deliver] at hended
  split at hended
  · rename_i hany
    obtain ⟨t, ht, hsignal⟩ := List.any_eq_true.1 hany
    simp only [Bool.and_eq_true, Bool.not_eq_true', Bool.or_eq_true] at hsignal
    obtain ⟨hunblocked, hown | hpending⟩ := hsignal
    · rw [(hthreads t ht).blocked hown] at hunblocked
      cases hunblocked
    · exact hpending
  · rw [halive] at hended
    cases hended

/-- What holds of all threads holds of them after the step of one. -/
theorem forall_mem_set {P : Writer → Prop} {threads : List Writer} {i : ℕ}
    (h : ∀ t ∈ threads, P t) (ht' : P t') : ∀ t ∈ threads.set i t', P t := by
  intro t ht
  rcases List.mem_or_eq_of_mem_set ht with ht | rfl
  · exact h t ht
  · exact ht'

theorem Daemon.Contained.step (h : d.Contained mask) {a : SigpipeAction}
    (hs : Sigpipe.step d a = some d') : d'.Contained mask := by
  rw [Sigpipe.step.eq_def] at hs
  split at hs
  · cases hs
  · rename_i halive
    have halive : d.alive = true := by simpa using halive
    cases a with
    | kill =>
        obtain rfl := Option.some.inj hs
        exact contained_deliver h.threads halive
    | create creator =>
        simp only at hs
        split at hs
        · cases hs
        · rename_i t ht
          split at hs
          · rename_i hpoint
            obtain rfl := Option.some.inj hs
            refine ⟨fun u hu => ?_, h.ended⟩
            rcases List.mem_append.1 hu with hu | hu
            · exact h.threads u hu
            · have hcontained := h.threads t (List.mem_of_getElem? ht)
              rw [Writer.Contained, hpoint] at hcontained
              rw [List.mem_singleton.1 hu]
              exact ⟨hcontained.1, fun hpending => by cases hpending⟩
          · cases hs
    | send i =>
        simp only at hs
        split at hs
        · cases hs
        · rename_i t ht
          split at hs
          · rename_i hpoint
            obtain rfl := Option.some.inj hs
            have hcontained := h.threads t (List.mem_of_getElem? ht)
            rw [Writer.Contained, hpoint] at hcontained
            exact ⟨forall_mem_set h.threads hcontained, h.ended⟩
          · cases hs
    | advance i outcome =>
        simp only at hs
        split at hs
        · cases hs
        · rename_i t ht
          split at hs
          · cases hs
          · rename_i t' pending hstep
            obtain rfl := Option.some.inj hs
            have hcontained := h.threads t (List.mem_of_getElem? ht)
            exact contained_deliver (forall_mem_set h.threads (hcontained.advance hstep)) halive

theorem Daemon.Quiet.step (h : d.Quiet) (hcontained : d.Contained mask) {a : SigpipeAction}
    (ha : a ≠ .kill) (hs : Sigpipe.step d a = some d') : d'.Quiet := by
  rw [Sigpipe.step.eq_def] at hs
  split at hs
  · cases hs
  · cases a with
    | kill => exact absurd rfl ha
    | create creator =>
        simp only at hs
        split at hs
        · cases hs
        · split at hs
          · obtain rfl := Option.some.inj hs
            refine ⟨h.pending, fun u hu => ?_⟩
            rcases List.mem_append.1 hu with hu | hu
            · exact h.threads u hu
            · rw [List.mem_singleton.1 hu]
              rfl
          · cases hs
    | send i =>
        simp only at hs
        split at hs
        · cases hs
        · rename_i t ht
          split at hs
          · rename_i hpoint
            obtain rfl := Option.some.inj hs
            have hquiet := h.threads t (List.mem_of_getElem? ht)
            rw [Writer.Quiet, hpoint] at hquiet
            exact ⟨h.pending, forall_mem_set h.threads hquiet⟩
          · cases hs
    | advance i outcome =>
        simp only at hs
        split at hs
        · cases hs
        · rename_i t ht
          split at hs
          · cases hs
          · rename_i t' pending hstep
            obtain rfl := Option.some.inj hs
            have hmem := List.mem_of_getElem? ht
            rw [h.pending] at hstep
            obtain ⟨hquiet, hpending⟩ :=
              (h.threads t hmem).advance (hcontained.threads t hmem) hstep
            refine ⟨by simpa using hpending, fun u hu => ?_⟩
            exact forall_mem_set h.threads hquiet u (by simpa using hu)

/-- **A client that hangs up does not end the daemon.**  In every run of any number of threads only
a signal that someone sends to the process can end it; and a thread that is not writing has the mask
that the daemon was started with, and, if nobody sends the signal, none is pending for it. -/
theorem sigpipe_contained {start : Daemon} {actions : List SigpipeAction}
    (halive : start.alive = true) (hpending : start.pending = false)
    (hthreads : ∀ t ∈ start.threads, t = ⟨mask, false, .outside⟩)
    (hrun : run step start actions = some d) :
    (d.alive = false → d.pending = true) ∧
    (.kill ∉ actions → d.alive = true) ∧
    ∀ t ∈ d.threads, t.point = .outside →
      t.blocked = mask ∧ (.kill ∉ actions → t.pending = false) := by
  have hstart : start.Contained mask := by
    refine ⟨fun t ht => ?_, fun hended => by rw [halive] at hended; cases hended⟩
    rw [hthreads t ht]
    exact ⟨rfl, fun hown => by cases hown⟩
  have hquiet : start.Quiet := by
    refine ⟨hpending, fun t ht => ?_⟩
    rw [hthreads t ht]
    rfl
  have hcontained : d.Contained mask := run_inv_of_step (fun _ _ _ h hs => h.step hs) hstart hrun
  have hkeeps : ∀ d a d', Daemon.Quiet d ∧ Daemon.Contained mask d → a ≠ .kill →
      step d a = some d' → Daemon.Quiet d' ∧ Daemon.Contained mask d' := fun _ _ _ h ha hs =>
    ⟨h.1.step h.2 ha hs, h.2.step hs⟩
  have hquiet' : .kill ∉ actions → d.Quiet := fun hkill =>
    (run_inv hkeeps ⟨hquiet, hstart⟩
      (along_of_forall fun a ha _ _ hkills => hkill (hkills ▸ ha)) hrun).1
  refine ⟨hcontained.ended, fun hkill => ?_, fun t ht hpoint => ⟨?_, fun hkill => ?_⟩⟩
  · by_contra hended
    have hset := hcontained.ended (by simpa using hended)
    rw [(hquiet' hkill).pending] at hset
    cases hset
  · have hmask := hcontained.threads t ht
    rw [Writer.Contained, hpoint] at hmask
    exact hmask.1
  · have hown := (hquiet' hkill).threads t ht
    rw [Writer.Quiet, hpoint] at hown
    exact hown

/-- A thread writes to a client that has gone, and is in `sigtimedwait` when another one writes. -/
def hangUp : List SigpipeAction :=
  [.send 0, .advance 0 ⟨false, false, false⟩, .advance 0 ⟨false, false, false⟩,
    .advance 0 ⟨true, false, false⟩, .create 1, .advance 0 ⟨false, false, false⟩, .send 2,
    .advance 2 ⟨false, false, false⟩, .advance 0 ⟨false, true, false⟩,
    .advance 0 ⟨false, false, false⟩, .advance 0 ⟨false, false, false⟩]

/-- The first thread has taken the signal of its write, the third is about to block its own. -/
def afterHangUp : Daemon :=
  ⟨[⟨false, false, .outside⟩, ⟨false, false, .outside⟩, ⟨false, false, .block⟩], false, true⟩

theorem sigpipe_contained_hangUp :
    (afterHangUp.alive = false → afterHangUp.pending = true) ∧
    (.kill ∉ hangUp → afterHangUp.alive = true) ∧
    ∀ t ∈ afterHangUp.threads, t.point = .outside →
      t.blocked = false ∧ (.kill ∉ hangUp → t.pending = false) :=
  @sigpipe_contained false afterHangUp
    ⟨[⟨false, false, .outside⟩, ⟨false, false, .outside⟩], false, true⟩ hangUp rfl rfl
    (by decide) (by decide)

end AwsS3fs.Sigpipe
