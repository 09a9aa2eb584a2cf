/-
**The two processes of the transfer daemon, and the signals between them.**

`StartProcesses` of `aws-s3fs-queued.c` forks: the child runs the file cache and the transfer queue,
the parent keeps its privileges and grants permissions.  Both register `SignalHandler`, for one
signal after the other, and the parent then notes the child in `killPid`.  The handler is the only
place where either of them ends the other or waits for it.  `SIGHUP`, `SIGCHLD`, `SIGTERM` and
`SIGINT` can come at any time, also in the middle of the handler of another one, and before a
handler is registered the kernel does what it does by default.  Other signals, which never have a
handler, are left out: a deadly one ends the parent, and nobody tells the child.

Main definitions:

* `StartProcesses.Process`, `StartProcesses.Process.signalHandler` — a process with its pending
  signals and the calls of `SignalHandler` it is in;
* `StartProcesses.step` — what can happen to the two processes;
* `StartProcesses.Harmless` — the steps that do not part them.

Main results:

* `StartProcesses.child_not_left_behind` — **the child does not outlive the parent**, exactly if
  every step is harmless.
-/

import AwsS3fs.Lib.Runs
import Mathlib.Data.Int.Order.Basic

set_option relaxedAutoImplicit false
set_option autoImplicit false

namespace AwsS3fs.StartProcesses

open Runs

/-! ### Signals and handlers -/

/-- The signals that `SignalHandler` is registered for. -/
inductive Signal
  | hup
  | chld
  | term
  | int
deriving DecidableEq, Repr

/-- What comes next in a call of `SignalHandler`. -/
inductive HandlerPoint
  /-- The `switch` over the signal. -/
  | switch
  /-- `kill( killPid, SIGTERM )`. -/
  | kill
  /-- The call of `wait`. -/
  | wait
  /-- The return from `wait`, which is blocked. -/
  | waiting
  /-- `exit( EXIT_SUCCESS )`. -/
  | exit
deriving DecidableEq, Repr

/-- A call of `SignalHandler` that has not returned. -/
structure HandlerCall where
  signal : Signal
  point : HandlerPoint
deriving DecidableEq, Repr

/-- A process of the daemon. -/
structure Process where
  /-- The signals with a handler. -/
  handled : List Signal
  /-- The signals whose handler is still to be registered. -/
  toRegister : List Signal
  killPid : ℤ
  pending : List Signal
  /-- The calls of `SignalHandler`, the innermost first. -/
  calls : List HandlerCall
  ended : Bool
deriving DecidableEq, Repr

/-- A process after `fork`; `killPid` has its initial value. -/
def Process.forked : Process :=
  ⟨[], [.hup, .chld, .term, .int], -1, [], [], false⟩

/-- What `wait` finds. -/
inductive ChildStatus
  | running
  | zombie
  /-- There is no child, or it has been waited for. -/
  | none
deriving DecidableEq, Repr

/-- What a call of `SignalHandler` does outside of its process. -/
inductive HandlerEffect
  | none
  /-- `SIGTERM` is sent to `killPid`. -/
  | kill
  /-- The child has been waited for. -/
  | reap
deriving DecidableEq, Repr

namespace Process

/-- A signal is sent to the process.  A signal that is pending is not queued twice, and `SIGCHLD`
is ignored by default. -/
def receive (p : Process) (s : Signal) : Process :=
  if p.ended ∨ s ∈ p.pending ∨ s = .chld ∧ s ∉ p.handled then p
  else { p with pending := s :: p.pending }

/-- A `wait` that is interrupted returns with `EINTR`, for the handlers are registered without
`SA_RESTART`. -/
def interrupt : List HandlerCall → List HandlerCall
  | ⟨s, .waiting⟩ :: calls => ⟨s, .exit⟩ :: calls
  | calls => calls

/-- A pending signal is delivered.  The signal of a handler is blocked until the handler returns;
without a handler the process is terminated, but for `SIGCHLD`. -/
def deliver (p : Process) (s : Signal) : Option Process :=
  if p.ended ∨ s ∉ p.pending ∨ s ∈ p.calls.map (·.signal) then none
  else if s ∈ p.handled then
    some { p with pending := p.pending.erase s, calls := ⟨s, .switch⟩ :: interrupt p.calls }
  else if s = .chld then some { p with pending := p.pending.erase s }
  else some { p with pending := p.pending.erase s, ended := true }

/-- One step of the innermost call of `SignalHandler`, and what it does outside of the process. -/
def signalHandler (p : Process) (child : ChildStatus) : Option (Process × HandlerEffect) :=
  if p.ended then none
  else
    match p.calls with
    | [] => none
    | ⟨.hup, _⟩ :: calls => some ({ p with calls := calls }, .none)
    | ⟨s, .switch⟩ :: calls =>
        if s = .chld then some ({ p with calls := ⟨s, .wait⟩ :: calls }, .none)
        else if 0 ≤ p.killPid then some ({ p with calls := ⟨s, .kill⟩ :: calls }, .none)
        else some ({ p with calls := ⟨s, .exit⟩ :: calls }, .none)
    | ⟨s, .kill⟩ :: calls => some ({ p with calls := ⟨s, .wait⟩ :: calls }, .kill)
    | ⟨s, .wait⟩ :: calls =>
        match child with
        | .running => some ({ p with calls := ⟨s, .waiting⟩ :: calls }, .none)
        | .zombie => some ({ p with calls := ⟨s, .exit⟩ :: calls }, .reap)
        | .none => some ({ p with calls := ⟨s, .exit⟩ :: calls }, .none)
    | ⟨s, .waiting⟩ :: calls =>
        match child with
        | .running => none
        | .zombie => some ({ p with calls := ⟨s, .exit⟩ :: calls }, .reap)
        | .none => some ({ p with calls := ⟨s, .exit⟩ :: calls }, .none)
    | ⟨_, .exit⟩ :: _ => some ({ p with ended := true }, .none)

/-- The next `sigaction` of `StartProcesses`, which ends the process if it fails. -/
def register (p : Process) (succeeds : Bool) : Option Process :=
  if p.ended ∨ p.calls ≠ [] then none
  else
    match p.toRegister with
    | [] => none
    | s :: rest =>
        if succeeds then some { p with handled := s :: p.handled, toRegister := rest }
        else some { p with ended := true }

/-- The parent notes the child. -/
def setKillPid (p : Process) (forkPid : ℕ) : Option Process :=
  if p.ended ∨ p.calls ≠ [] ∨ p.toRegister ≠ [] ∨ 0 ≤ p.killPid then none
  else some { p with killPid := forkPid }

end Process

/-! ### The two processes -/

/-- The two processes after `fork`. -/
structure Processes where
  forkPid : ℕ
  parent : Process
  child : Process
  /-- The parent has waited for the child. -/
  reaped : Bool
deriving DecidableEq, Repr

/-- The state in which `fork` returns. -/
def forked (forkPid : ℕ) : Processes := ⟨forkPid, .forked, .forked, false⟩

/-- One of the two processes. -/
inductive Party
  | parent
  | child
deriving DecidableEq, Repr

/-- What happens. -/
inductive ProcessAction
  /-- Someone else sends a signal. -/
  | signal (party : Party) (s : Signal)
  | register (party : Party) (succeeds : Bool)
  | setKillPid
  | deliver (party : Party) (s : Signal)
  | handler (party : Party)
  /-- The child ends in one of its threads. -/
  | childExits
deriving DecidableEq, Repr

namespace Processes

/-- What the parent finds when it waits. -/
def childStatus (s : Processes) : ChildStatus :=
  if ¬ s.child.ended then .running else if s.reaped then .none else .zombie

/-- The child takes a step; the parent receives `SIGCHLD` if the child ends. -/
def withChild (s : Processes) (child : Process) : Processes :=
  { s with
    child := child
    parent := if child.ended then s.parent.receive .chld else s.parent }

/-- A call of `SignalHandler` in the parent takes a step. -/
def withHandler (s : Processes) : Process × HandlerEffect → Processes
  | (parent, .none) => { s with parent := parent }
  | (parent, .kill) => { s with
      parent := parent
      child := if s.childStatus = .none then s.child else s.child.receive .term }
  | (parent, .reap) => { s with parent := parent, reaped := true }

end Processes

/-- What can happen to the two processes. -/
def step (s : Processes) : ProcessAction → Option Processes
  | .signal .parent signal => some { s with parent := s.parent.receive signal }
  | .signal .child signal => some { s with child := s.child.receive signal }
  | .register .parent succeeds => (s.parent.register succeeds).map fun p => { s with parent := p }
  | .register .child succeeds => (s.child.register succeeds).map s.withChild
  | .setKillPid => (s.parent.setKillPid s.forkPid).map fun p => { s with parent := p }
  | .deliver .parent signal => (s.parent.deliver signal).map fun p => { s with parent := p }
  | .deliver .child signal => (s.child.deliver signal).map s.withChild
  | .handler .parent => (s.parent.signalHandler s.childStatus).map s.withHandler
  -- the child has no children of its own, and its `killPid` is negative
  | .handler .child => (s.child.signalHandler .none).map fun r => s.withChild r.1
  | .childExits => if s.child.ended then none else some (s.withChild { s.child with ended := true })

/-! ### A child that ends -/

/-- A signal has reached the process: it is pending, or its handler has been called. -/
def Process.Has (p : Process) (signal : Signal) : Prop :=
  signal ∈ p.pending ∨ signal ∈ p.calls.map (·.signal)

/-- The process has been told to end. -/
def Process.Told (p : Process) : Prop := p.Has .term

instance (p : Process) : Decidable p.Told := inferInstanceAs (Decidable (_ ∨ _))

/-- The child has ended, or has been told to. -/
def Processes.ChildEnds (s : Processes) : Prop := s.child.ended = true ∨ s.child.Told

instance (s : Processes) : Decidable s.ChildEnds := inferInstanceAs (Decidable (_ ∨ _))

/-- **The steps that do not part the processes**, as long as the child does not end anyway: the
parent registers its handlers, is told to end only after it has noted the child, and is not
interrupted by `SIGHUP` while its handler of `SIGCHLD` waits. -/
def Harmless (s : Processes) (a : ProcessAction) : Prop :=
  s.ChildEnds ∨
    match a with
    | .register .parent succeeds => succeeds = true
    | .deliver .parent .hup =>
        .hup ∈ s.parent.handled ∧ s.parent.calls.head? ≠ some ⟨.chld, .waiting⟩
    | .deliver .parent .chld => True
    | .deliver .parent signal => signal ∈ s.parent.handled ∧ 0 ≤ s.parent.killPid
    | _ => True

instance (s : Processes) (a : ProcessAction) : Decidable (Harmless s a) := by
  rcases a with _ | ⟨_ | _, _⟩ | _ | ⟨_ | _, _ | _ | _ | _⟩ | _ | _ <;>
    exact inferInstanceAs (Decidable (_ ∨ _))

variable {p p' : Process} {s s' : Processes} {signal : Signal}

namespace Process

theorem receive_cases (p : Process) (signal : Signal) :
    p.receive signal = p ∨ p.receive signal = { p with pending := signal :: p.pending } := by
  rw [receive]
  split
  · exact .inl rfl
  · exact .inr rfl

@[simp]
theorem calls_receive : (p.receive signal).calls = p.calls := by
  rcases receive_cases p signal with h | h <;> rw [h]

@[simp]
theorem ended_receive : (p.receive signal).ended = p.ended := by
  rcases receive_cases p signal with h | h <;> rw [h]

@[simp]
theorem killPid_receive : (p.receive signal).killPid = p.killPid := by
  rcases receive_cases p signal with h | h <;> rw [h]

@[simp]
theorem map_signal_interrupt (calls : List HandlerCall) :
    (interrupt calls).map (·.signal) = calls.map (·.signal) := by
  rcases calls with _ | ⟨⟨s, point⟩, calls⟩
  · rfl
  · cases point <;> rfl

/-- What the delivery of a signal can do. -/
theorem deliver_cases (h : p.deliver signal = some p') :
    p.ended = false ∧ signal ∈ p.pending ∧ signal ∉ p.calls.map (·.signal) ∧
    (signal ∈ p.handled ∧ p' = { p with
        pending := p.pending.erase signal
        calls := ⟨signal, .switch⟩ :: interrupt p.calls } ∨
      signal = .chld ∧ p' = { p with pending := p.pending.erase signal } ∨
      signal ∉ p.handled ∧ signal ≠ .chld ∧
        p' = { p with pending := p.pending.erase signal, ended := true }) := by
  rw [deliver] at h
  split at h
  · cases h
  · rename_i hnot
    simp only [not_or, not_not, Bool.not_eq_true] at hnot
    refine ⟨hnot.1, hnot.2.1, hnot.2.2, ?_⟩
    split at h
    · rename_i hhandled
      exact .inl ⟨hhandled, (Option.some.inj h).symm⟩
    · rename_i hunhandled
      split at h
      · rename_i hchld
        exact .inr (.inl ⟨hchld, (Option.some.inj h).symm⟩)
      · rename_i hchld
        exact .inr (.inr ⟨hunhandled, hchld, (Option.some.inj h).symm⟩)

/-- What a step of the innermost call can be. -/
inductive HandlerStep (p : Process) (child : ChildStatus) : Process → HandlerEffect → Prop
  | returns {point : HandlerPoint} {calls : List HandlerCall}
      (hcalls : p.calls = ⟨.hup, point⟩ :: calls) :
      HandlerStep p child { p with calls := calls } .none
  | waits {calls : List HandlerCall} (hcalls : p.calls = ⟨.chld, .switch⟩ :: calls) :
      HandlerStep p child { p with calls := ⟨.chld, .wait⟩ :: calls } .none
  | kills {s : Signal} {calls : List HandlerCall} (hcalls : p.calls = ⟨s, .switch⟩ :: calls)
      (hsignal : s = .term ∨ s = .int) (hpid : 0 ≤ p.killPid) :
      HandlerStep p child { p with calls := ⟨s, .kill⟩ :: calls } .none
  | exits {s : Signal} {calls : List HandlerCall} (hcalls : p.calls = ⟨s, .switch⟩ :: calls)
      (hsignal : s = .term ∨ s = .int) (hpid : p.killPid < 0) :
      HandlerStep p child { p with calls := ⟨s, .exit⟩ :: calls } .none
  | killed {s : Signal} {calls : List HandlerCall} (hcalls : p.calls = ⟨s, .kill⟩ :: calls)
      (hsignal : s ≠ .hup) : HandlerStep p child { p with calls := ⟨s, .wait⟩ :: calls } .kill
  | blocks {s : Signal} {calls : List HandlerCall} (hcalls : p.calls = ⟨s, .wait⟩ :: calls)
      (hsignal : s ≠ .hup) (hchild : child = .running) :
      HandlerStep p child { p with calls := ⟨s, .waiting⟩ :: calls } .none
  | waited {s : Signal} {point : HandlerPoint} {calls : List HandlerCall} {effect : HandlerEffect}
      (hcalls : p.calls = ⟨s, point⟩ :: calls) (hsignal : s ≠ .hup)
      (hpoint : point = .wait ∨ point = .waiting) (hchild : child ≠ .running)
      (heffect : effect ≠ .kill) :
      HandlerStep p child { p with calls := ⟨s, .exit⟩ :: calls } effect
  | ends {s : Signal} {calls : List HandlerCall} (hcalls : p.calls = ⟨s, .exit⟩ :: calls)
      (hsignal : s ≠ .hup) : HandlerStep p child { p with ended := true } .none

theorem handlerStep_of_signalHandler {child : ChildStatus} {r : Process × HandlerEffect}
    (h : p.signalHandler child = some r) : p.ended = false ∧ HandlerStep p child r.1 r.2 := by
  rw [signalHandler] at h
  split at h
  · cases h
  · rename_i hended
    refine ⟨by simpa using hended, ?_⟩
    split at h
    · cases h
    · rename_i hcalls
      cases h
      exact .returns hcalls
    · rename_i s calls hhup hcalls
      split at h
      · rename_i hchld
        cases h
        subst hchld
        exact .waits hcalls
      · rename_i hchld
        have hsignal : s = .term ∨ s = .int := by
          cases s with
          | hup => exact absurd rfl hhup
          | chld => exact absurd rfl hchld
          | term => exact .inl rfl
          | int => exact .inr rfl
        split at h
        · rename_i hpid
          cases h
          exact .kills hcalls hsignal hpid
        · rename_i hpid
          cases h
          exact .exits hcalls hsignal (by omega)
    · rename_i s calls hhup hcalls
      cases h
      exact .killed hcalls hhup
    · rename_i s calls hhup hcalls
      split at h
      · cases h
        exact .blocks hcalls hhup rfl
      all_goals
        cases h
        exact .waited hcalls hhup (.inl rfl) nofun nofun
    · rename_i s calls hhup hcalls
      split at h
      · cases h
      all_goals
        cases h
        exact .waited hcalls hhup (.inr rfl) nofun nofun
    · rename_i s calls hhup hcalls
      cases h
      exact .ends hcalls hhup

theorem register_cases {succeeds : Bool} (h : p.register succeeds = some p') :
    p.ended = false ∧ p.calls = [] ∧ ∃ signal rest, p.toRegister = signal :: rest ∧
      (succeeds = true ∧ p' = { p with handled := signal :: p.handled, toRegister := rest } ∨
        succeeds = false ∧ p' = { p with ended := true }) := by
  rw [register] at h
  split at h
  · cases h
  · rename_i hnot
    simp only [not_or, not_not, Bool.not_eq_true] at hnot
    refine ⟨hnot.1, hnot.2, ?_⟩
    split at h
    · cases h
    · rename_i signal rest hrest
      refine ⟨signal, rest, hrest, ?_⟩
      cases succeeds with
      | true => exact .inl ⟨rfl, (Option.some.inj h).symm⟩
      | false => exact .inr ⟨rfl, (Option.some.inj h).symm⟩

theorem setKillPid_cases {forkPid : ℕ} (h : p.setKillPid forkPid = some p') :
    p.ended = false ∧ p.calls = [] ∧ p.toRegister = [] ∧ p.killPid < 0 ∧
      p' = { p with killPid := forkPid } := by
  rw [setKillPid] at h
  split at h
  · cases h
  · rename_i hnot
    simp only [not_or, not_not, Bool.not_eq_true, not_le] at hnot
    exact ⟨hnot.1, hnot.2.1, hnot.2.2.1, hnot.2.2.2, (Option.some.inj h).symm⟩

end Process

/-! ### A child that has been told to end -/

namespace Process

theorem Told.receive (h : p.Told) : (p.receive signal).Told := by
  rcases receive_cases p signal with hp | hp <;> rw [hp]
  · exact h
  · exact h.imp (List.mem_cons_of_mem _) id

theorem told_receive_term (h : p.ended = false) : (p.receive .term).Told := by
  rw [receive]
  split
  · rename_i hnot
    simp only [h, Bool.false_eq_true, false_or, reduceCtorEq, false_and, or_false] at hnot
    exact .inl hnot
  · exact .inl List.mem_cons_self

theorem Told.deliver (h : p.Told) (hp : p.deliver signal = some p') :
    p'.ended = true ∨ p'.Told := by
  obtain ⟨-, -, -, ⟨-, rfl⟩ | ⟨rfl, rfl⟩ | ⟨-, -, rfl⟩⟩ := deliver_cases hp
  · right
    rcases h with hpending | hcall
    · by_cases hterm : signal = .term
      · exact .inr (hterm ▸ List.mem_cons_self)
      · exact .inl ((List.mem_erase_of_ne (Ne.symm hterm)).2 hpending)
    · refine .inr (List.mem_cons_of_mem _ ?_)
      rw [map_signal_interrupt]
      exact hcall
  · exact .inr (h.imp (fun hpending => (List.mem_erase_of_ne (by decide)).2 hpending) id)
  · exact .inl rfl

theorem Told.signalHandler {child : ChildStatus} {effect : HandlerEffect} (h : p.Told)
    (hp : HandlerStep p child p' effect) : p'.ended = true ∨ p'.Told := by
  rcases h with hpending | hcall
  · cases hp
    all_goals exact .inr (.inl hpending)
  · cases hp with
    | returns hcalls =>
        rw [hcalls] at hcall
        exact .inr (.inr ((List.mem_cons.1 hcall).resolve_left nofun))
    | ends => exact .inl rfl
    | waits hcalls | kills hcalls | exits hcalls | killed hcalls | blocks hcalls | waited hcalls =>
        rw [hcalls] at hcall
        exact .inr (.inr hcall)

end Process

open Process

/-- What a step of the child does to a child that has been told to end. -/
theorem Processes.ChildEnds.step (h : s.ChildEnds) {a : ProcessAction}
    (hs : StartProcesses.step s a = some s') : s'.ChildEnds := by
  cases a with
  | signal party signal =>
      cases party with
      | parent =>
          obtain rfl := Option.some.inj hs
          exact h
      | child =>
          obtain rfl := Option.some.inj hs
          exact h.imp (fun hended => ended_receive.trans hended) Told.receive
  | register party succeeds =>
      cases party with
      | parent =>
          obtain ⟨p', hp', rfl⟩ := Option.map_eq_some_iff.1 hs
          exact h
      | child =>
          obtain ⟨p', hp', rfl⟩ := Option.map_eq_some_iff.1 hs
          obtain ⟨-, -, signal, rest, -, ⟨-, rfl⟩ | ⟨-, rfl⟩⟩ := register_cases hp'
          · exact h
          · exact .inl rfl
  | setKillPid =>
      obtain ⟨p', hp', rfl⟩ := Option.map_eq_some_iff.1 hs
      exact h
  | deliver party signal =>
      cases party with
      | parent =>
          obtain ⟨p', hp', rfl⟩ := Option.map_eq_some_iff.1 hs
          exact h
      | child =>
          obtain ⟨p', hp', rfl⟩ := Option.map_eq_some_iff.1 hs
          rcases h with hended | htold
          · exact absurd hended (by simp [(deliver_cases hp').1])
          · exact htold.deliver hp'
  | handler party =>
      cases party with
      | parent =>
          obtain ⟨⟨p', effect⟩, hp', rfl⟩ := Option.map_eq_some_iff.1 hs
          cases effect with
          | none | reap => exact h
          | kill =>
              simp only [Processes.withHandler]
              split
              · exact h
              · exact h.imp (fun hended => ended_receive.trans hended) Told.receive
      | child =>
          obtain ⟨⟨p', effect⟩, hp', rfl⟩ := Option.map_eq_some_iff.1 hs
          obtain ⟨hrunning, hstep⟩ := handlerStep_of_signalHandler hp'
          rcases h with hended | htold
          · exact absurd hended (by simp [hrunning])
          · exact htold.signalHandler hstep
  | childExits =>
      simp only [StartProcesses.step] at hs
      split at hs
      · cases hs
      · obtain rfl := Option.some.inj hs
        exact .inl rfl

/-! ### A parent that has not left its child yet -/

namespace Process

/-- The innermost call that does not return: all but the handler of `SIGHUP` end the process. -/
def innermost (p : Process) : Option HandlerCall := p.calls.find? (·.signal ≠ .hup)

/-- A call that has not come to the point at which the child is told to end, or has ended. -/
def HandlerCall.Early (killPid : ℤ) (c : HandlerCall) : Prop :=
  c.signal = .chld ∧ (c.point = .switch ∨ c.point = .wait ∨ c.point = .waiting) ∨
    c.signal ≠ .chld ∧ 0 ≤ killPid ∧ (c.point = .switch ∨ c.point = .kill)

/-- The process runs, and its innermost call has not come to this point. -/
def BeforeKill (p : Process) : Prop :=
  p.ended = false ∧ ∀ c, p.innermost = some c → HandlerCall.Early p.killPid c

theorem innermost_of_hup {point : HandlerPoint} {calls : List HandlerCall}
    (hcalls : p.calls = ⟨.hup, point⟩ :: calls) :
    p.innermost = calls.find? (·.signal ≠ .hup) := by
  rw [innermost, hcalls]
  rfl

theorem innermost_of_ne {point : HandlerPoint} {calls : List HandlerCall}
    (hcalls : p.calls = ⟨signal, point⟩ :: calls) (hsignal : signal ≠ .hup) :
    p.innermost = some ⟨signal, point⟩ := by
  rw [innermost, hcalls]
  exact List.find?_cons_of_pos (by simpa using hsignal)

theorem interrupt_of_head? {calls : List HandlerCall}
    (h : ∀ s, calls.head? ≠ some ⟨s, .waiting⟩) : interrupt calls = calls := by
  rcases calls with _ | ⟨⟨s, point⟩, calls⟩
  · rfl
  · cases point with
    | waiting => exact absurd rfl (h s)
    | switch | kill | wait | exit => rfl

theorem BeforeKill.deliver (h : p.BeforeKill) (hp : p.deliver signal = some p')
    (hharmless : match (motive := Signal → Prop) signal with
      | .hup => .hup ∈ p.handled ∧ p.calls.head? ≠ some ⟨.chld, .waiting⟩
      | .chld => True
      | signal => signal ∈ p.handled ∧ 0 ≤ p.killPid) : p'.BeforeKill := by
  obtain ⟨hrunning, -, hblocked, ⟨-, rfl⟩ | ⟨rfl, rfl⟩ | ⟨hunhandled, hchld, rfl⟩⟩ :=
    deliver_cases hp
  · refine ⟨hrunning, fun c hc => ?_⟩
    cases signal with
    | hup =>
        rw [innermost_of_hup rfl] at hc
        refine h.2 c ?_
        rw [innermost]
        rwa [interrupt_of_head?] at hc
        intro s hs
        obtain ⟨calls, hcalls⟩ := List.head?_eq_some_iff.1 hs
        have hearly := h.2 ⟨s, .waiting⟩
        cases s with
        | hup => exact absurd (by rw [hcalls]; exact List.mem_cons_self) hblocked
        | chld => exact hharmless.2 hs
        | term | int =>
            rcases hearly (innermost_of_ne hcalls (by decide)) with ⟨hs, -⟩ | ⟨-, -, hs | hs⟩
            all_goals cases hs
    | chld =>
        rw [innermost_of_ne rfl (by decide)] at hc
        cases hc
        exact .inl ⟨rfl, .inl rfl⟩
    | term | int =>
        rw [innermost_of_ne rfl (by decide)] at hc
        cases hc
        exact .inr ⟨by decide, hharmless.2, .inl rfl⟩
  · exact h
  · cases signal with
    | chld => exact absurd rfl hchld
    | hup | term | int => exact absurd hharmless.1 hunhandled

/-- The handler of the parent goes on while the child runs. -/
theorem BeforeKill.signalHandler {effect : HandlerEffect} (h : p.BeforeKill)
    (hp : HandlerStep p .running p' effect) : effect = .kill ∨ p'.BeforeKill := by
  obtain ⟨hrunning, hearly⟩ := h
  cases hp with
  | returns hcalls =>
      refine .inr ⟨hrunning, fun c hc => hearly c ?_⟩
      rw [innermost_of_hup hcalls]
      exact hc
  | waits hcalls =>
      refine .inr ⟨hrunning, fun c hc => ?_⟩
      rw [innermost_of_ne rfl (by decide)] at hc
      cases hc
      exact .inl ⟨rfl, .inr (.inl rfl)⟩
  | kills hcalls hsignal hpid =>
      refine .inr ⟨hrunning, fun c hc => ?_⟩
      rw [innermost_of_ne rfl (by rcases hsignal with rfl | rfl <;> decide)] at hc
      cases hc
      exact .inr ⟨by rcases hsignal with rfl | rfl <;> decide, hpid, .inr rfl⟩
  | @exits s _ hcalls hsignal hpid =>
      have hhup : s ≠ Signal.hup := by rcases hsignal with rfl | rfl <;> decide
      obtain ⟨rfl, -⟩ | ⟨-, hpid', -⟩ := hearly _ (innermost_of_ne hcalls hhup)
      · rcases hsignal with hs | hs <;> cases hs
      · omega
  | killed => exact .inl rfl
  | blocks hcalls hsignal =>
      obtain ⟨rfl, -⟩ | ⟨-, -, hpoint | hpoint⟩ := hearly _ (innermost_of_ne hcalls hsignal)
      · refine .inr ⟨hrunning, fun c hc => ?_⟩
        rw [innermost_of_ne rfl hsignal] at hc
        cases hc
        exact .inl ⟨rfl, .inr (.inr rfl)⟩
      · cases hpoint
      · cases hpoint
  | waited _ _ _ hchild => exact absurd rfl hchild
  | ends hcalls hsignal =>
      obtain ⟨-, hpoint | hpoint | hpoint⟩ | ⟨-, -, hpoint | hpoint⟩ :=
        hearly _ (innermost_of_ne hcalls hsignal)
      all_goals cases hpoint

theorem BeforeKill.of_eq (h : p.BeforeKill) (hcalls : p'.calls = p.calls)
    (hended : p'.ended = p.ended) (hpid : p'.killPid = p.killPid) : p'.BeforeKill := by
  refine ⟨hended.trans h.1, fun c hc => ?_⟩
  rw [hpid]
  refine h.2 c ?_
  rw [innermost, ← hcalls]
  exact hc

theorem beforeKill_of_calls_eq_nil (hended : p.ended = false) (hcalls : p.calls = []) :
    p.BeforeKill := by
  refine ⟨hended, fun c hc => ?_⟩
  rw [innermost, hcalls] at hc
  cases hc

end Process

/-- **The child ends, or the parent has not left it yet.** -/
def Processes.Together (s : Processes) : Prop := s.ChildEnds ∨ s.parent.BeforeKill

theorem Processes.together_withChild (h : s.parent.BeforeKill) (child : Process) :
    (s.withChild child).Together := by
  cases hended : child.ended with
  | true => exact .inl (.inl hended)
  | false =>
      refine .inr ?_
      simp only [Processes.withChild, hended, Bool.false_eq_true, if_false]
      exact h

theorem Processes.childStatus_eq_running (h : ¬ s.ChildEnds) : s.childStatus = .running :=
  if_pos fun hended => h (.inl hended)

/-- A harmless step keeps the processes together. -/
theorem Processes.Together.step (h : s.Together) {a : ProcessAction} (ha : Harmless s a)
    (hs : StartProcesses.step s a = some s') : s'.Together := by
  by_cases hends : s.ChildEnds
  · exact .inl (hends.step hs)
  have hparent : s.parent.BeforeKill := h.resolve_left hends
  have hharmless := ha.resolve_left hends
  cases a with
  | signal party signal =>
      cases party with
      | parent =>
          obtain rfl := Option.some.inj hs
          exact .inr (hparent.of_eq calls_receive ended_receive killPid_receive)
      | child =>
          obtain rfl := Option.some.inj hs
          exact .inr hparent
  | register party succeeds =>
      cases party with
      | parent =>
          obtain ⟨p', hp', rfl⟩ := Option.map_eq_some_iff.1 hs
          obtain rfl : succeeds = true := hharmless
          obtain ⟨hended, hcalls, signal, rest, -, ⟨-, rfl⟩ | ⟨hfails, -⟩⟩ := register_cases hp'
          · exact .inr (beforeKill_of_calls_eq_nil hended hcalls)
          · cases hfails
      | child =>
          obtain ⟨p', hp', rfl⟩ := Option.map_eq_some_iff.1 hs
          exact together_withChild hparent p'
  | setKillPid =>
      obtain ⟨p', hp', rfl⟩ := Option.map_eq_some_iff.1 hs
      obtain ⟨hended, hcalls, -, -, rfl⟩ := setKillPid_cases hp'
      exact .inr (beforeKill_of_calls_eq_nil hended hcalls)
  | deliver party signal =>
      cases party with
      | parent =>
          obtain ⟨p', hp', rfl⟩ := Option.map_eq_some_iff.1 hs
          refine .inr (hparent.deliver hp' ?_)
          cases signal with
          | hup | chld | term | int => exact hharmless
      | child =>
          obtain ⟨p', hp', rfl⟩ := Option.map_eq_some_iff.1 hs
          exact together_withChild hparent p'
  | handler party =>
      cases party with
      | parent =>
          obtain ⟨⟨p', effect⟩, hp', rfl⟩ := Option.map_eq_some_iff.1 hs
          rw [childStatus_eq_running hends] at hp'
          obtain ⟨-, hstep⟩ := handlerStep_of_signalHandler hp'
          rcases hparent.signalHandler hstep with rfl | hp'
          · have hrunning : s.child.ended = false := by
              rw [← Bool.not_eq_true]
              exact fun hended => hends (.inl hended)
            refine .inl (.inr ?_)
            simp only [Processes.withHandler, childStatus_eq_running hends, reduceCtorEq, if_false]
            exact told_receive_term hrunning
          · cases effect with
            | none | reap => exact .inr hp'
            | kill => exact .inr hp'
      | child =>
          obtain ⟨r, -, rfl⟩ := Option.map_eq_some_iff.1 hs
          exact together_withChild hparent r.1
  | childExits =>
      simp only [StartProcesses.step] at hs
      split at hs
      · cases hs
      · obtain rfl := Option.some.inj hs
        exact together_withChild hparent _

/-! ### A child that is left behind -/

/-- **The parent has ended, and the child goes on.** -/
def Processes.Parted (s : Processes) : Prop := s.parent.ended = true ∧ ¬ s.ChildEnds

/-- A parent that comes to `exit` leaves the child behind. -/
theorem parted_of_exit {calls : List HandlerCall} (hends : ¬ s.ChildEnds)
    (hrunning : s.parent.ended = false) (hcalls : s.parent.calls = ⟨signal, .exit⟩ :: calls)
    (hsignal : signal ≠ .hup) : ∃ t, step s (.handler .parent) = some t ∧ t.Parted := by
  refine ⟨{ s with parent := { s.parent with ended := true } }, ?_, rfl, hends⟩
  cases signal with
  | hup => exact absurd rfl hsignal
  | chld | term | int => simp [step, signalHandler, hrunning, hcalls, Processes.withHandler]

/-- So does a parent whose next step leads there. -/
theorem parted_of_next {calls : List HandlerCall} (hends : ¬ s.ChildEnds)
    (hnext : step s (.handler .parent) = some { s with parent := p }) (hrunning : p.ended = false)
    (hcalls : p.calls = ⟨signal, .exit⟩ :: calls) (hsignal : signal ≠ .hup) :
    ∃ n t, run step s (List.replicate n (.handler .parent)) = some t ∧ t.Parted := by
  obtain ⟨t, ht, hparted⟩ :=
    parted_of_exit (s := { s with parent := p }) hends hrunning hcalls hsignal
  exact ⟨2, t, run_cons.2 ⟨_, hnext, run_cons.2 ⟨t, ht, rfl⟩⟩, hparted⟩

/-- So does a parent that is told to end before it has noted the child. -/
theorem parted_of_unnoted {pending : List Signal} {calls : List HandlerCall}
    (hsignal : signal = .term ∨ signal = .int) (hends : ¬ s.ChildEnds)
    (hrunning : s.parent.ended = false) (hpid : ¬ 0 ≤ s.parent.killPid) :
    ∃ n t, run step { s with parent := { s.parent with
        pending := pending
        calls := ⟨signal, .switch⟩ :: calls } } (List.replicate n (.handler .parent)) = some t ∧
      t.Parted := by
  refine parted_of_next (p := { s.parent with
    pending := pending
    calls := ⟨signal, .exit⟩ :: calls }) hends ?_ hrunning rfl ?_
  · rcases hsignal with rfl | rfl <;>
      simp [step, signalHandler, hrunning, hpid, Processes.withHandler]
  · rcases hsignal with rfl | rfl <;> decide

/-- A step that is not harmless parts the processes, if the parent goes on with its handler. -/
theorem parted_of_not_harmless {a : ProcessAction} (ha : ¬ Harmless s a)
    (hs : step s a = some s') :
    ∃ n t, run step s' (List.replicate n (.handler .parent)) = some t ∧ t.Parted := by
  obtain ⟨hends, ha⟩ := not_or.1 ha
  cases a with
  | register party succeeds =>
      cases party with
      | child => exact absurd trivial ha
      | parent =>
          obtain ⟨p', hp', rfl⟩ := Option.map_eq_some_iff.1 hs
          obtain ⟨-, -, -, -, -, ⟨hsucceeds, -⟩ | ⟨-, rfl⟩⟩ := register_cases hp'
          · exact absurd hsucceeds ha
          · exact ⟨0, _, rfl, rfl, hends⟩
  | deliver party signal =>
      cases party with
      | child => exact absurd trivial ha
      | parent =>
          obtain ⟨p', hp', rfl⟩ := Option.map_eq_some_iff.1 hs
          obtain ⟨hrunning, -, -, ⟨hhandled, rfl⟩ | ⟨rfl, -⟩ | ⟨-, -, rfl⟩⟩ := deliver_cases hp'
          · cases signal with
            | chld => exact absurd trivial ha
            | hup =>
                have hwaiting : s.parent.calls.head? = some ⟨.chld, .waiting⟩ := by
                  by_contra hne
                  exact ha ⟨hhandled, hne⟩
                obtain ⟨calls, hcalls⟩ := List.head?_eq_some_iff.1 hwaiting
                have hchld : Signal.chld ≠ .hup := by decide
                refine parted_of_next (p := { s.parent with
                  pending := s.parent.pending.erase .hup
                  calls := ⟨.chld, .exit⟩ :: calls }) hends ?_ hrunning rfl hchld
                simp [step, signalHandler, hrunning, hcalls, interrupt, Processes.withHandler]
            | term =>
                exact parted_of_unnoted (.inl rfl) hends hrunning fun hpid => ha ⟨hhandled, hpid⟩
            | int =>
                exact parted_of_unnoted (.inr rfl) hends hrunning fun hpid => ha ⟨hhandled, hpid⟩
          · exact absurd trivial ha
          · exact ⟨0, _, rfl, rfl, hends⟩
  | signal | setKillPid | handler | childExits => exact absurd trivial ha

/-- **The child does not outlive the parent**: in no state that is reached with harmless steps, and
with no signals but the four that have a handler, has the parent ended while the child, which has
not been told to end, goes on; and any other step leads to such a state, if the parent goes on with
its handler. -/
theorem child_not_left_behind {forkPid : ℕ} {actions : List ProcessAction}
    (halong : Along step (fun s a _ => Harmless s a) (forked forkPid) actions)
    (hrun : run step (forked forkPid) actions = some s) :
    ¬ s.Parted ∧ ∀ a s', step s a = some s' → ¬ Harmless s a →
      ∃ n t, run step s' (List.replicate n (.handler .parent)) = some t ∧ t.Parted := by
  have htogether : s.Together :=
    run_inv (fun _ _ _ h ha hs => h.step ha hs) (.inr (beforeKill_of_calls_eq_nil rfl rfl))
      halong hrun
  refine ⟨?_, fun a s' hs ha => parted_of_not_harmless ha hs⟩
  rintro ⟨hended, hends⟩
  rcases htogether with h | h
  · exact hends h
  · exact absurd hended (by simp [h.1])

/-- The parent after `fork`, when someone interrupts it at once. -/
def interrupted : Processes :=
  { forked 7 with parent := { Process.forked with pending := [.int] } }

theorem child_not_left_behind_interrupted :
    ¬ interrupted.Parted ∧ ∃ n t, run step { forked 7 with
        parent := { Process.forked with ended := true } }
      (List.replicate n (.handler .parent)) = some t ∧ t.Parted :=
  have h := @child_not_left_behind interrupted 7 [.signal .parent .int]
    (by decide) (by decide)
  ⟨h.1, h.2 (.deliver .parent .int) _ (by decide) (by decide)⟩

end AwsS3fs.StartProcesses
