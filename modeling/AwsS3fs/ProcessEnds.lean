/-
**How the two processes of the transfer daemon end.**

A parent that is told to end sends `SIGTERM` to the child, waits for it, and exits; a parent whose
child has ended waits for it and exits.  All the time further signals, of the four that have a
handler, can interrupt the handlers.
The processes come to their end nevertheless: every step makes a measure of what is left smaller,
and there is no state in which each of them waits for the other.

Main definitions:

* `StartProcesses.Processes.remaining` — a bound on the steps that are left;
* `StartProcesses.Process.Stopping` — a process that has ended, or is in a handler that ends it.

Main results:

* `StartProcesses.Processes.remaining_step_lt` — every step of the processes makes it smaller;
* `StartProcesses.both_end` — **a parent that stops takes the child with it**, in a bounded number
  of steps.
-/

import AwsS3fs.StartProcesses
import Mathlib.Algebra.GroupWithZero.Nat
import Mathlib.Algebra.Order.Group.Nat
import Mathlib.Algebra.BigOperators.Group.List.Basic

set_option relaxedAutoImplicit false
set_option autoImplicit false

namespace AwsS3fs.StartProcesses

open Runs Process

variable {p p' : Process} {s s' : Processes} {signal : Signal}

/-! ### The end of both processes -/

/-- A bound on the steps that are left in a call, in which a call of `kill` counts for more. -/
def HandlerPoint.remaining (kill : ℕ) : HandlerPoint → ℕ
  | .exit => 1
  | .waiting => 2
  | .wait => 3
  | .kill => 4 + kill
  | .switch => 5 + kill

/-- A bound on the steps of a process. -/
def Process.remaining (kill : ℕ) (p : Process) : ℕ :=
  if p.ended then 0
  else (p.calls.map (·.point.remaining kill)).sum + (6 + kill) * p.pending.length +
    p.toRegister.length + (if p.killPid < 0 then 1 else 0) + 1

/-- **A bound on the steps of the two processes**, if no signals come from outside.  The parent
sends one signal with each call of `kill`, and gets one when the child ends. -/
def Processes.remaining (s : Processes) : ℕ :=
  s.parent.remaining 6 + (if s.child.ended then 0 else s.child.remaining 0 + 12)

/-- What the processes do themselves. -/
def ProcessAction.Own : ProcessAction → Prop
  | .signal _ _ => False
  | _ => True

namespace Process

variable {kill : ℕ}

theorem remaining_of_ended (h : p.ended = true) : p.remaining kill = 0 := by
  rw [remaining, if_pos h]

theorem remaining_receive_le :
    (p.receive signal).remaining kill ≤ p.remaining kill + (6 + kill) := by
  rcases receive_cases p signal with h | h <;> rw [h]
  · exact Nat.le_add_right _ _
  · cases hended : p.ended with
    | true => simp [remaining, hended]
    | false =>
        simp only [remaining, hended, Bool.false_eq_true, if_false, List.length_cons]
        rw [Nat.mul_succ]
        omega

theorem sum_interrupt_le (calls : List HandlerCall) :
    ((interrupt calls).map (·.point.remaining kill)).sum ≤
      (calls.map (·.point.remaining kill)).sum := by
  rcases calls with _ | ⟨⟨s, point⟩, calls⟩
  · exact le_rfl
  · cases point with
    | waiting => simp [interrupt, HandlerPoint.remaining]
    | switch | kill | wait | exit => exact le_rfl

theorem remaining_deliver_lt (h : p.deliver signal = some p') :
    p'.remaining kill < p.remaining kill := by
  obtain ⟨hrunning, hpending, -, hp'⟩ := deliver_cases h
  have hlength := List.length_erase_add_one hpending
  have hmul : (6 + kill) * p.pending.length =
      (6 + kill) * (p.pending.erase signal).length + (6 + kill) := by
    rw [← hlength, Nat.mul_succ]
  obtain ⟨-, rfl⟩ | ⟨rfl, rfl⟩ | ⟨-, -, rfl⟩ := hp'
  · have hle := @sum_interrupt_le kill p.calls
    have hswitch : HandlerPoint.switch.remaining kill = 5 + kill := rfl
    simp only [remaining, hrunning, Bool.false_eq_true, if_false, hmul, List.map_cons,
      List.sum_cons, hswitch]
    omega
  · simp only [remaining, hrunning, Bool.false_eq_true, if_false, hmul]
    omega
  · simp only [remaining, hrunning, Bool.false_eq_true, if_false, if_true]
    omega

theorem remaining_register_lt {succeeds : Bool} (h : p.register succeeds = some p') :
    p'.remaining kill < p.remaining kill := by
  obtain ⟨hrunning, -, signal, rest, hrest, hp'⟩ := register_cases h
  obtain ⟨-, rfl⟩ | ⟨-, rfl⟩ := hp'
  · simp only [remaining, hrunning, Bool.false_eq_true, if_false, hrest, List.length_cons]
    omega
  · simp only [remaining, hrunning, Bool.false_eq_true, if_false, if_true]
    omega

theorem remaining_setKillPid_lt {forkPid : ℕ} (h : p.setKillPid forkPid = some p') :
    p'.remaining kill < p.remaining kill := by
  obtain ⟨hrunning, -, -, hpid, rfl⟩ := setKillPid_cases h
  have hnonneg : ¬ (forkPid : ℤ) < 0 := by omega
  simp only [remaining, hrunning, Bool.false_eq_true, if_false, if_pos hpid, if_neg hnonneg]
  omega

theorem remaining_signalHandler_lt (kill : ℕ) {child : ChildStatus} {effect : HandlerEffect}
    (hrunning : p.ended = false) (h : HandlerStep p child p' effect) :
    p'.remaining kill + (if effect = .kill then kill else 0) < p.remaining kill := by
  cases h with
  | ends hcalls =>
      simp only [remaining, hrunning, Bool.false_eq_true, if_false, if_true, reduceCtorEq]
      omega
  | @returns point calls hcalls =>
      have hpos : 0 < point.remaining kill := by cases point <;> simp [HandlerPoint.remaining]
      simp only [remaining, hrunning, Bool.false_eq_true, if_false, hcalls, List.map_cons,
        List.sum_cons, reduceCtorEq]
      omega
  | waited hcalls _ hpoint _ heffect =>
      rcases hpoint with rfl | rfl
      all_goals
        simp only [remaining, hrunning, Bool.false_eq_true, if_false, hcalls, if_neg heffect,
          List.map_cons, List.sum_cons, HandlerPoint.remaining]
        omega
  | killed hcalls =>
      simp only [remaining, hrunning, Bool.false_eq_true, if_false, hcalls, if_true,
        List.map_cons, List.sum_cons, HandlerPoint.remaining]
      omega
  | waits hcalls | kills hcalls | exits hcalls | blocks hcalls =>
      simp only [remaining, hrunning, Bool.false_eq_true, if_false, hcalls, reduceCtorEq,
        List.map_cons, List.sum_cons, HandlerPoint.remaining]
      omega

end Process

theorem Processes.remaining_withChild_lt {child : Process}
    (h : child.remaining 0 < s.child.remaining 0) :
    (s.withChild child).remaining < s.remaining := by
  have hrunning : s.child.ended = false := by
    rw [← Bool.not_eq_true]
    intro hended
    rw [remaining_of_ended hended] at h
    omega
  cases hended : child.ended with
  | true =>
      have hle := @remaining_receive_le s.parent .chld 6
      simp only [Processes.remaining, Processes.withChild, hrunning, hended, Bool.false_eq_true,
        if_false, if_true]
      omega
  | false =>
      simp only [Processes.remaining, Processes.withChild, hrunning, hended, Bool.false_eq_true,
        if_false]
      omega

/-- Every step of the processes brings them closer to their end. -/
theorem Processes.remaining_step_lt {a : ProcessAction} (ha : a.Own)
    (hs : StartProcesses.step s a = some s') : s'.remaining < s.remaining := by
  cases a with
  | signal => exact absurd ha id
  | register party succeeds =>
      cases party with
      | parent =>
          obtain ⟨p', hp', rfl⟩ := Option.map_eq_some_iff.1 hs
          exact Nat.add_lt_add_right (remaining_register_lt hp') _
      | child =>
          obtain ⟨p', hp', rfl⟩ := Option.map_eq_some_iff.1 hs
          exact remaining_withChild_lt (remaining_register_lt hp')
  | setKillPid =>
      obtain ⟨p', hp', rfl⟩ := Option.map_eq_some_iff.1 hs
      exact Nat.add_lt_add_right (remaining_setKillPid_lt hp') _
  | deliver party signal =>
      cases party with
      | parent =>
          obtain ⟨p', hp', rfl⟩ := Option.map_eq_some_iff.1 hs
          exact Nat.add_lt_add_right (remaining_deliver_lt hp') _
      | child =>
          obtain ⟨p', hp', rfl⟩ := Option.map_eq_some_iff.1 hs
          exact remaining_withChild_lt (remaining_deliver_lt hp')
  | handler party =>
      cases party with
      | parent =>
          obtain ⟨⟨p', effect⟩, hp', rfl⟩ := Option.map_eq_some_iff.1 hs
          obtain ⟨hrunning, hstep⟩ := handlerStep_of_signalHandler hp'
          have hlt := remaining_signalHandler_lt 6 hrunning hstep
          cases effect with
          | none | reap => exact Nat.add_lt_add_right hlt _
          | kill =>
              simp only [if_true] at hlt
              have hle := @remaining_receive_le s.child .term 0
              cases hended : s.child.ended with
              | true =>
                  simp only [Processes.withHandler, Processes.remaining, hended, ended_receive,
                    apply_ite Process.ended, ite_self, if_true]
                  omega
              | false =>
                  simp only [Processes.withHandler, Processes.remaining, hended, ended_receive,
                    apply_ite Process.ended, ite_self, Bool.false_eq_true, if_false]
                  split <;> omega
      | child =>
          obtain ⟨⟨p', effect⟩, hp', rfl⟩ := Option.map_eq_some_iff.1 hs
          obtain ⟨hrunning, hstep⟩ := handlerStep_of_signalHandler hp'
          have hlt := remaining_signalHandler_lt 0 hrunning hstep
          exact remaining_withChild_lt (by omega)
  | childExits =>
      simp only [StartProcesses.step] at hs
      split at hs
      · cases hs
      · rename_i hrunning
        obtain rfl := Option.some.inj hs
        refine remaining_withChild_lt ?_
        rw [remaining_of_ended rfl, Process.remaining, if_neg hrunning]
        omega

namespace Process

theorem has_of_receive {signal' : Signal} (h : (p.receive signal').Has signal) :
    signal = signal' ∨ p.Has signal := by
  rcases receive_cases p signal' with hp | hp <;> rw [hp] at h
  · exact .inr h
  · rcases h with hpending | hcall
    · exact (List.mem_cons.1 hpending).imp id .inl
    · exact .inr (.inr hcall)

theorem has_of_deliver {signal' : Signal} (hp : p.deliver signal' = some p') (h : p'.Has signal) :
    p.Has signal := by
  obtain ⟨-, hpending, -, ⟨-, rfl⟩ | ⟨-, rfl⟩ | ⟨-, -, rfl⟩⟩ := deliver_cases hp
  · rcases h with h | h
    · exact .inl (List.mem_of_mem_erase h)
    · rw [List.map_cons, map_signal_interrupt] at h
      rcases List.mem_cons.1 h with rfl | h
      · exact .inl hpending
      · exact .inr h
  · exact h.imp List.mem_of_mem_erase id
  · exact h.imp List.mem_of_mem_erase id

theorem has_of_signalHandler {child : ChildStatus} {effect : HandlerEffect}
    (hp : HandlerStep p child p' effect) (h : p'.Has signal) : p.Has signal := by
  cases hp with
  | ends => exact h
  | returns hcalls =>
      refine h.imp id fun hcall => ?_
      rw [hcalls]
      exact List.mem_cons_of_mem _ hcall
  | waits hcalls | kills hcalls | exits hcalls | killed hcalls | blocks hcalls | waited hcalls =>
      refine h.imp id fun hcall => ?_
      rw [hcalls]
      exact hcall

/-- The process has ended, or is in a handler that ends it. -/
def Stopping (p : Process) : Prop :=
  p.ended = true ∨ ∃ signal ∈ p.calls.map (·.signal), signal ≠ .hup

theorem Stopping.deliver (h : p.Stopping) (hp : p.deliver signal = some p') : p'.Stopping := by
  obtain ⟨hrunning, -, -, ⟨-, rfl⟩ | ⟨-, rfl⟩ | ⟨-, -, rfl⟩⟩ := deliver_cases hp
  · obtain ⟨signal', hmem, hne⟩ := h.resolve_left (by simp [hrunning])
    refine .inr ⟨signal', List.mem_cons_of_mem _ ?_, hne⟩
    rwa [map_signal_interrupt]
  · exact h
  · exact .inl rfl

theorem Stopping.signalHandler {child : ChildStatus} {effect : HandlerEffect} (h : p.Stopping)
    (hrunning : p.ended = false) (hp : HandlerStep p child p' effect) : p'.Stopping := by
  obtain ⟨signal, hmem, hne⟩ := h.resolve_left (by simp [hrunning])
  cases hp with
  | ends => exact .inl rfl
  | returns hcalls =>
      rw [hcalls] at hmem
      exact .inr ⟨signal, (List.mem_cons.1 hmem).resolve_left hne, hne⟩
  | waits hcalls | kills hcalls | exits hcalls | killed hcalls | blocks hcalls | waited hcalls =>
      rw [hcalls] at hmem
      exact .inr ⟨signal, hmem, hne⟩

/-- A handler is registered or will be, and the parent notes the child when all of them are. -/
def Registers (p : Process) : Prop :=
  (∀ signal, signal ∈ p.handled ∨ signal ∈ p.toRegister) ∧ (0 ≤ p.killPid → p.toRegister = [])

theorem Registers.register {succeeds : Bool} (h : p.Registers)
    (hp : p.register succeeds = some p') : p'.Registers := by
  obtain ⟨-, -, signal, rest, hrest, ⟨-, rfl⟩ | ⟨-, rfl⟩⟩ := register_cases hp
  · refine ⟨fun signal' => ?_, fun hpid => ?_⟩
    · rcases h.1 signal' with hhandled | hmem
      · exact .inl (List.mem_cons_of_mem _ hhandled)
      · rw [hrest] at hmem
        rcases List.mem_cons.1 hmem with rfl | hmem
        · exact .inl List.mem_cons_self
        · exact .inr hmem
    · rw [h.2 hpid] at hrest
      cases hrest
  · exact h

/-- The handler can go on unless it waits for a child that runs. -/
theorem signalHandler_eq_none {child : ChildStatus} (hrunning : p.ended = false)
    (h : p.signalHandler child = none) :
    p.calls = [] ∨ child = .running ∧ ∃ signal calls, signal ≠ .hup ∧
      p.calls = ⟨signal, .waiting⟩ :: calls := by
  rw [signalHandler, if_neg (by simp [hrunning])] at h
  split at h
  · rename_i hcalls
    exact .inl hcalls
  · cases h
  · split at h
    · cases h
    · split at h <;> cases h
  · cases h
  · split at h <;> cases h
  · rename_i signal calls hne hcalls
    split at h
    · exact .inr ⟨rfl, signal, calls, hne, hcalls⟩
    · cases h
    · cases h
  · cases h

/-- A process without children that has been told to end can go on. -/
theorem Told.goesOn (h : p.Told) (hrunning : p.ended = false) :
    p.signalHandler .none ≠ none ∨ p.deliver .term ≠ none := by
  by_cases hcalls : p.calls = []
  · rcases h with hpending | hcall
    · refine .inr ?_
      rw [Process.deliver, hcalls]
      simp only [hrunning, hpending, Bool.false_eq_true, not_true_eq_false, List.map_nil,
        List.not_mem_nil, or_self, if_false]
      split <;> simp
    · rw [hcalls] at hcall
      cases hcall
  · refine .inl fun hnone => ?_
    rcases signalHandler_eq_none hrunning hnone with hnil | ⟨hchild, -⟩
    · exact hcalls hnil
    · cases hchild

end Process

/-- The parent has been sent `SIGCHLD` only by the end of the child. -/
def Processes.NoStray (s : Processes) : Prop := s.parent.Has .chld → s.child.ended = true

/-- Steps of the child keep what they do not concern. -/
theorem Processes.noStray_withChild (h : s.NoStray) {child : Process}
    (hrunning : s.child.ended = false) : (s.withChild child).NoStray := by
  intro hhas
  cases hended : child.ended with
  | true => exact hended
  | false =>
      simp only [Processes.withChild, hended, Bool.false_eq_true, if_false] at hhas
      exact absurd (h hhas) (by simp [hrunning])

theorem Process.Registers.receive (h : p.Registers) : (p.receive signal).Registers := by
  rcases receive_cases p signal with hp | hp <;> rw [hp]
  · exact h
  · exact h

theorem Processes.registers_withChild (h : s.parent.Registers) (child : Process) :
    (s.withChild child).parent.Registers := by
  simp only [Processes.withChild]
  split
  · exact h.receive
  · exact h

theorem Processes.stopping_withChild (h : s.parent.Stopping) (child : Process) :
    (s.withChild child).parent.Stopping := by
  simp only [Processes.withChild]
  split
  · simpa only [Stopping, ended_receive, calls_receive] using h
  · exact h

/-- What the end of both processes rests on, but for what `Together` says. -/
structure Processes.Ordered (s : Processes) : Prop where
  noStray : s.NoStray
  registers : s.parent.Registers

theorem Processes.Ordered.withChild (h : s.Ordered) {child : Process}
    (hrunning : s.child.ended = false) : (s.withChild child).Ordered :=
  ⟨noStray_withChild h.noStray hrunning, registers_withChild h.registers child⟩

theorem Processes.Ordered.step (h : s.Ordered) {a : ProcessAction} (ha : a ≠ .signal .parent .chld)
    (hs : StartProcesses.step s a = some s') : s'.Ordered := by
  cases a with
  | signal party signal =>
      cases party with
      | parent =>
          obtain rfl := Option.some.inj hs
          refine ⟨fun hhas => h.noStray ?_, h.registers.receive⟩
          exact (has_of_receive hhas).resolve_left fun hsignal => ha (by rw [hsignal])
      | child =>
          obtain rfl := Option.some.inj hs
          exact ⟨fun hhas => ended_receive.trans (h.noStray hhas), h.registers⟩
  | register party succeeds =>
      cases party with
      | parent =>
          obtain ⟨p', hp', rfl⟩ := Option.map_eq_some_iff.1 hs
          refine ⟨fun hhas => h.noStray ?_, h.registers.register hp'⟩
          obtain ⟨-, -, signal, rest, -, ⟨-, rfl⟩ | ⟨-, rfl⟩⟩ := register_cases hp'
          · exact hhas
          · exact hhas
      | child =>
          obtain ⟨p', hp', rfl⟩ := Option.map_eq_some_iff.1 hs
          exact h.withChild (register_cases hp').1
  | setKillPid =>
      obtain ⟨p', hp', rfl⟩ := Option.map_eq_some_iff.1 hs
      obtain ⟨-, -, hrest, -, rfl⟩ := setKillPid_cases hp'
      exact ⟨h.noStray, h.registers.1, fun _ => hrest⟩
  | deliver party signal =>
      cases party with
      | parent =>
          obtain ⟨p', hp', rfl⟩ := Option.map_eq_some_iff.1 hs
          refine ⟨fun hhas => h.noStray (has_of_deliver hp' hhas), ?_⟩
          obtain ⟨-, -, -, ⟨-, rfl⟩ | ⟨-, rfl⟩ | ⟨-, -, rfl⟩⟩ := deliver_cases hp'
          · exact h.registers
          · exact h.registers
          · exact h.registers
      | child =>
          obtain ⟨p', hp', rfl⟩ := Option.map_eq_some_iff.1 hs
          exact h.withChild (deliver_cases hp').1
  | handler party =>
      cases party with
      | parent =>
          obtain ⟨⟨p', effect⟩, hp', rfl⟩ := Option.map_eq_some_iff.1 hs
          obtain ⟨-, hstep⟩ := handlerStep_of_signalHandler hp'
          have hregisters : p'.Registers := by cases hstep <;> exact h.registers
          have hended : p'.Has .chld → s.child.ended = true := fun hhas =>
            h.noStray (has_of_signalHandler hstep hhas)
          cases effect with
          | none | reap => exact ⟨hended, hregisters⟩
          | kill =>
              refine ⟨fun hhas => ?_, hregisters⟩
              simp only [Processes.withHandler, apply_ite Process.ended, ended_receive, ite_self]
              exact hended hhas
      | child =>
          obtain ⟨⟨p', effect⟩, hp', rfl⟩ := Option.map_eq_some_iff.1 hs
          exact h.withChild (handlerStep_of_signalHandler hp').1
  | childExits =>
      simp only [StartProcesses.step] at hs
      split at hs
      · cases hs
      · rename_i hrunning
        obtain rfl := Option.some.inj hs
        exact h.withChild (by simpa using hrunning)

/-- A parent that stops goes on to do so. -/
theorem Processes.stopping_step (h : s.parent.Stopping) {a : ProcessAction} (ha : a.Own)
    (hs : StartProcesses.step s a = some s') : s'.parent.Stopping := by
  have hbusy : s.parent.ended = false → s.parent.calls ≠ [] := by
    intro hrunning hnil
    obtain ⟨signal, hmem, -⟩ := h.resolve_left (by simp [hrunning])
    rw [hnil] at hmem
    cases hmem
  cases a with
  | signal => exact absurd ha id
  | register party succeeds =>
      cases party with
      | parent =>
          obtain ⟨p', hp', rfl⟩ := Option.map_eq_some_iff.1 hs
          obtain ⟨hrunning, hnil, -⟩ := register_cases hp'
          exact absurd hnil (hbusy hrunning)
      | child =>
          obtain ⟨p', -, rfl⟩ := Option.map_eq_some_iff.1 hs
          exact stopping_withChild h p'
  | setKillPid =>
      obtain ⟨p', hp', rfl⟩ := Option.map_eq_some_iff.1 hs
      obtain ⟨hrunning, hnil, -⟩ := setKillPid_cases hp'
      exact absurd hnil (hbusy hrunning)
  | deliver party signal =>
      cases party with
      | parent =>
          obtain ⟨p', hp', rfl⟩ := Option.map_eq_some_iff.1 hs
          exact h.deliver hp'
      | child =>
          obtain ⟨p', -, rfl⟩ := Option.map_eq_some_iff.1 hs
          exact stopping_withChild h p'
  | handler party =>
      cases party with
      | parent =>
          obtain ⟨⟨p', effect⟩, hp', rfl⟩ := Option.map_eq_some_iff.1 hs
          obtain ⟨hrunning, hstep⟩ := handlerStep_of_signalHandler hp'
          have hstops := h.signalHandler hrunning hstep
          cases effect with
          | none | kill | reap => exact hstops
      | child =>
          obtain ⟨r, -, rfl⟩ := Option.map_eq_some_iff.1 hs
          exact stopping_withChild h r.1
  | childExits =>
      simp only [StartProcesses.step] at hs
      split at hs
      · cases hs
      · obtain rfl := Option.some.inj hs
        exact stopping_withChild h _

theorem Processes.Ordered.ended_of_mem (h : s.Ordered) (hends : ¬ s.ChildEnds)
    {signal : Signal} (hmem : signal ∈ s.parent.calls.map (·.signal)) : signal ≠ .chld := by
  rintro rfl
  exact hends (.inl (h.noStray (.inr hmem)))

/-- While the parent stops, the steps of the processes are harmless. -/
theorem Processes.harmless_of_stopping (htogether : s.Together) (h : s.Ordered)
    (hstop : s.parent.Stopping) {a : ProcessAction} (ha : a.Own)
    (hs : StartProcesses.step s a = some s') : Harmless s a := by
  by_cases hends : s.ChildEnds
  · exact .inl hends
  obtain ⟨hrunning, hearly⟩ := htogether.resolve_left hends
  obtain ⟨signal, hmem, hne⟩ := hstop.resolve_left (by simp [hrunning])
  obtain ⟨c, hc⟩ : ∃ c, s.parent.innermost = some c := by
    rw [← Option.isSome_iff_exists, innermost, List.find?_isSome]
    obtain ⟨c, hc, rfl⟩ := List.mem_map.1 hmem
    exact ⟨c, hc, by simpa using hne⟩
  have hchld : c.signal ≠ .chld :=
    h.ended_of_mem hends (List.mem_map_of_mem (List.mem_of_find?_eq_some hc))
  obtain ⟨hsignal, -⟩ | ⟨-, hpid, -⟩ := hearly c hc
  · exact absurd hsignal hchld
  have hhandled : ∀ signal, signal ∈ s.parent.handled := by
    intro signal
    refine (h.registers.1 signal).resolve_right ?_
    rw [h.registers.2 hpid]
    exact List.not_mem_nil
  right
  cases a with
  | signal => exact absurd ha id
  | register party succeeds =>
      cases party with
      | parent =>
          obtain ⟨p', hp', -⟩ := Option.map_eq_some_iff.1 hs
          obtain ⟨-, hnil, -⟩ := register_cases hp'
          rw [hnil] at hmem
          cases hmem
      | child => trivial
  | deliver party signal =>
      cases party with
      | parent =>
          cases signal with
          | hup =>
              refine ⟨hhandled _, fun hhead => ?_⟩
              obtain ⟨calls, hcalls⟩ := List.head?_eq_some_iff.1 hhead
              refine h.ended_of_mem hends ?_ rfl
              rw [hcalls]
              exact List.mem_cons_self
          | chld => trivial
          | term | int => exact ⟨hhandled _, hpid⟩
      | child => trivial
  | setKillPid | handler | childExits => trivial

/-- If the parent stops and none of the two can go on, both have ended. -/
theorem Processes.ended_of_stuck (htogether : s.Together) (h : s.Ordered)
    (hstop : s.parent.Stopping)
    (hstuck : ∀ a : ProcessAction, a.Own → a ≠ .childExits → StartProcesses.step s a = none) :
    s.parent.ended = true ∧ s.child.ended = true := by
  have hchild : s.ChildEnds → s.child.ended = true := by
    rintro (hended | htold)
    · exact hended
    · by_contra hrunning
      rcases htold.goesOn (by simpa using hrunning) with hgo | hgo
      · exact hgo (Option.map_eq_none_iff.1 (hstuck (.handler .child) trivial nofun))
      · exact hgo (Option.map_eq_none_iff.1 (hstuck (.deliver .child .term) trivial nofun))
  have hparent : s.parent.ended = true := by
    by_contra hrunning
    have hrunning : s.parent.ended = false := by simpa using hrunning
    have hnone := Option.map_eq_none_iff.1 (hstuck (.handler .parent) trivial nofun)
    obtain ⟨signal, hmem, -⟩ := hstop.resolve_left (by simp [hrunning])
    rcases signalHandler_eq_none hrunning hnone with hnil | ⟨hstatus, c, calls, hne, hcalls⟩
    · rw [hnil] at hmem
      cases hmem
    · have hchildruns : s.child.ended ≠ true := by
        intro hended
        simp only [childStatus, hended, not_true_eq_false, if_false] at hstatus
        split at hstatus <;> cases hstatus
      rcases htogether with hends | ⟨-, hearly⟩
      · exact hchildruns (hchild hends)
      · obtain ⟨rfl, -⟩ | ⟨-, -, hpoint | hpoint⟩ := hearly _ (innermost_of_ne hcalls hne)
        · refine hchildruns (h.noStray (.inr ?_))
          rw [hcalls]
          exact List.mem_cons_self
        · cases hpoint
        · cases hpoint
  refine ⟨hparent, hchild (htogether.resolve_right fun hbefore => ?_)⟩
  rw [hbefore.1] at hparent
  cases hparent

/-- **A parent that is in a handler that ends it takes the child with it**: when only the four
signals with a handler have come, and no further ones come from outside, the two processes take a
bounded number of steps, and when they cannot go on, both have ended. -/
theorem both_end {forkPid : ℕ} {actions own : List ProcessAction} {t : Processes}
    (halong : Along step (fun s a _ => Harmless s a) (forked forkPid) actions)
    (hstray : ∀ a ∈ actions, a ≠ .signal .parent .chld)
    (hrun : run step (forked forkPid) actions = some s) (hstop : s.parent.Stopping)
    (hown : ∀ a ∈ own, a.Own) (hrun' : run step s own = some t) :
    own.length ≤ s.remaining ∧
      ((∀ a : ProcessAction, a.Own → a ≠ .childExits → step t a = none) →
        t.parent.ended = true ∧ t.child.ended = true) := by
  have hforked : (forked forkPid).Together ∧ (forked forkPid).Ordered := by
    refine ⟨.inr (beforeKill_of_calls_eq_nil rfl rfl), ?_, ?_, ?_⟩
    · rintro (hpending | hcall)
      · cases hpending
      · cases hcall
    · intro signal
      cases signal with
      | hup | chld | term | int =>
          exact .inr (show _ ∈ Process.forked.toRegister by decide)
    · intro hpid
      exact absurd hpid (show ¬ 0 ≤ Process.forked.killPid by decide)
  have hkeeps : ∀ s a s', Processes.Together s ∧ Processes.Ordered s →
      Harmless s a ∧ a ≠ .signal .parent .chld → step s a = some s' →
      Processes.Together s' ∧ Processes.Ordered s' := fun _ _ _ h ha hs =>
    ⟨h.1.step ha.1 hs, h.2.step ha.2 hs⟩
  have hreached := run_inv hkeeps hforked
    (halong.and (along_of_forall fun a ha _ _ => hstray a ha)) hrun
  have hgoes : ∀ s a s', (Processes.Together s ∧ Processes.Ordered s) ∧ s.parent.Stopping →
      ProcessAction.Own a → step s a = some s' →
      (Processes.Together s' ∧ Processes.Ordered s') ∧ s'.parent.Stopping := by
    intro s a s' ⟨⟨htogether, hordered⟩, hstop⟩ ha hs
    refine ⟨hkeeps s a s' ⟨htogether, hordered⟩ ?_ hs, Processes.stopping_step hstop ha hs⟩
    refine ⟨Processes.harmless_of_stopping htogether hordered hstop ha hs, ?_⟩
    rintro rfl
    exact ha
  obtain ⟨⟨htogether, hordered⟩, hstop'⟩ :=
    run_inv hgoes ⟨hreached, hstop⟩ (along_of_forall fun a ha _ _ => hown a ha) hrun'
  refine ⟨?_, Processes.ended_of_stuck htogether hordered hstop'⟩
  have hle := length_add_le_of_lt (fun _ _ _ ha hs => Processes.remaining_step_lt ha hs) hown hrun'
  omega

/-- The parent has noted the child, and the handler of `SIGTERM` has been called in it. -/
def terminated : Processes :=
  { forkPid := 7
    parent := ⟨[.int, .term, .chld, .hup], [], 7, [], [⟨.term, .switch⟩], false⟩
    child := .forked
    reaped := false }

/-- The child has been terminated and waited for. -/
def bothEnded : Processes :=
  { forkPid := 7
    parent := ⟨[.int, .term, .chld, .hup], [], 7, [.chld], [⟨.term, .exit⟩], true⟩
    child := ⟨[], [.hup, .chld, .term, .int], -1, [], [], true⟩
    reaped := true }

theorem both_end_terminated :
    5 ≤ terminated.remaining ∧ bothEnded.parent.ended = true ∧ bothEnded.child.ended = true :=
  have h := @both_end terminated 7
    [.register .parent true, .register .parent true, .register .parent true,
      .register .parent true, .setKillPid, .signal .parent .term, .deliver .parent .term]
    [.handler .parent, .handler .parent, .deliver .child .term, .handler .parent,
      .handler .parent] bothEnded (by decide) (by decide) (by decide)
    (.inr ⟨.term, by decide, by decide⟩) (by simp [ProcessAction.Own]) (by decide)
  ⟨h.1, h.2 (by
    intro a ha _
    rcases a with _ | ⟨_ | _, _⟩ | _ | ⟨_ | _, _⟩ | ⟨_ | _⟩ | _
    all_goals first | exact absurd ha id | rfl)⟩

end AwsS3fs.StartProcesses
