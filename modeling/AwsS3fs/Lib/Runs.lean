/-
**Runs of a system that takes one step after the other.**

A system is a partial step function: in a state, an action either is possible and leads to the next
state, or is not.  What any number of threads do in any order is a list of actions.  This module
has runs, what it means that every step of a run meets a condition, and the three ways in which the
invariants of a system are used: a state property of all runs, a property of every step of a run,
and the exact condition on the steps under which a state property is never lost.  A loop over a list
whose body can fail is such a run, with the elements of the list as its actions.

Main definitions:

* `Runs.run` — the state after a list of actions;
* `Runs.Along` — every step of a run meets a condition on the state before it, the action and the
  state after it.

Main results:

* `Runs.run_inv` — **an invariant of the steps holds after every run**;
* `Runs.along_of_inv` — an invariant turns a condition on every step into a property of every step;
* `Runs.forall_prefix_iff_along` — **when a property is never lost**: if a step keeps it exactly
  when the step meets a condition, it holds in every state of a run exactly if every step does;
* `Runs.foldlM_spec` — what a loop does whose steps succeed;
* `Runs.forall_prefix_foldlM_iff` — **when a loop never fails**, in terms of the elements before
  each step.
-/

import Mathlib.Data.List.Induction

set_option relaxedAutoImplicit false
set_option autoImplicit false

namespace Runs

variable {σ α : Type*} (step : σ → α → Option σ)

/-- The state after a list of actions, if all of them are possible. -/
def run : σ → List α → Option σ
  | s, [] => some s
  | s, a :: as => (step s a).bind fun s' => run s' as

/-- Every step of a run meets `C`, a condition on the state before the step, the action and the
state after it. -/
def Along (C : σ → α → σ → Prop) : σ → List α → Prop
  | _, [] => True
  | s, a :: as => ∀ s', step s a = some s' → C s a s' ∧ Along C s' as

variable {step}

@[simp]
theorem run_nil (s : σ) : run step s [] = some s := rfl

theorem run_cons {s t : σ} {a : α} {as : List α} :
    run step s (a :: as) = some t ↔ ∃ s', step s a = some s' ∧ run step s' as = some t := by
  simp [run, Option.bind_eq_some_iff]

theorem run_append {t : σ} {bs : List α} :
    ∀ {s : σ} {as : List α},
      run step s (as ++ bs) = some t ↔ ∃ s', run step s as = some s' ∧ run step s' bs = some t := by
  intro s as
  induction as generalizing s with
  | nil => simp
  | cons a as ih =>
      simp only [List.cons_append, run_cons, ih]
      constructor
      · rintro ⟨s₁, hs₁, s', hs', ht⟩
        exact ⟨s', ⟨s₁, hs₁, hs'⟩, ht⟩
      · rintro ⟨s', ⟨s₁, hs₁, hs'⟩, ht⟩
        exact ⟨s₁, hs₁, s', hs', ht⟩

theorem run_concat {s t : σ} {as : List α} {a : α} :
    run step s (as ++ [a]) = some t ↔ ∃ s', run step s as = some s' ∧ step s' a = some t := by
  simp only [run_append, run_cons, run_nil, Option.some_inj, exists_eq_right]

theorem Along.and {C D : σ → α → σ → Prop} :
    ∀ {s : σ} {as : List α}, Along step C s as → Along step D s as →
      Along step (fun s a s' => C s a s' ∧ D s a s') s as := by
  intro s as
  induction as generalizing s with
  | nil => exact fun _ _ => trivial
  | cons a as ih =>
      intro hC hD s' hs'
      exact ⟨⟨(hC s' hs').1, (hD s' hs').1⟩, ih (hC s' hs').2 (hD s' hs').2⟩

theorem Along.last {C : σ → α → σ → Prop} {a : α} {t t' : σ} (ht' : step t a = some t') :
    ∀ {s : σ} {as : List α}, Along step C s (as ++ [a]) → run step s as = some t → C t a t' := by
  intro s as
  induction as generalizing s with
  | nil =>
      intro halong hrun
      cases hrun
      exact (halong t' ht').1
  | cons b as ih =>
      intro halong hrun
      obtain ⟨s', hs', hrest⟩ := run_cons.1 hrun
      exact ih (halong s' hs').2 hrest

/-- A condition on the steps of two runs, one after the other. -/
theorem along_append {C : σ → α → σ → Prop} {bs : List α} :
    ∀ {s : σ} {as : List α}, Along step C s (as ++ bs) ↔
      Along step C s as ∧ ∀ t, run step s as = some t → Along step C t bs := by
  intro s as
  induction as generalizing s with
  | nil => exact ⟨fun h => ⟨trivial, fun t ht => Option.some.inj ht ▸ h⟩, fun h => h.2 s rfl⟩
  | cons a as ih =>
      constructor
      · intro h
        refine ⟨fun s' hs' => ⟨(h s' hs').1, (ih.1 (h s' hs').2).1⟩, fun t ht => ?_⟩
        obtain ⟨s', hs', ht⟩ := run_cons.1 ht
        exact (ih.1 (h s' hs').2).2 t ht
      · rintro ⟨hfirst, hrest⟩ s' hs'
        obtain ⟨hC, halong⟩ := hfirst s' hs'
        exact ⟨hC, ih.2 ⟨halong, fun t ht => hrest t (run_cons.2 ⟨s', hs', ht⟩)⟩⟩

instance decidableAlong {C : σ → α → σ → Prop} [∀ s a s', Decidable (C s a s')] :
    ∀ (s : σ) (as : List α), Decidable (Along step C s as)
  | _, [] => isTrue trivial
  | s, a :: as =>
      match h : step s a with
      | none => isTrue fun s' hs' => by rw [h] at hs'; cases hs'
      | some s' =>
          have := decidableAlong (C := C) s' as
          decidable_of_iff (C s a s' ∧ Along step C s' as)
            ⟨fun hC t ht => by rw [h] at ht; cases ht; exact hC, fun hC => hC s' h⟩

/-- A condition that every action meets in every state. -/
theorem along_of_forall {C : σ → α → σ → Prop} :
    ∀ {s : σ} {as : List α}, (∀ a ∈ as, ∀ s s', C s a s') → Along step C s as := by
  intro s as
  induction as generalizing s with
  | nil => exact fun _ => trivial
  | cons a as ih =>
      intro h s' _
      exact ⟨h a List.mem_cons_self s s', ih fun b hb => h b (List.mem_cons_of_mem _ hb)⟩

/-- **An invariant of the steps holds after every run** whose steps meet the condition that the
invariant needs. -/
theorem run_inv {Inv : σ → Prop} {C : σ → α → σ → Prop}
    (hstep : ∀ s a s', Inv s → C s a s' → step s a = some s' → Inv s') :
    ∀ {s t : σ} {as : List α}, Inv s → Along step C s as → run step s as = some t → Inv t := by
  intro s t as
  induction as generalizing s with
  | nil =>
      intro hinv _ hrun
      cases hrun
      exact hinv
  | cons a as ih =>
      intro hinv halong hrun
      obtain ⟨s', hs', hrest⟩ := run_cons.1 hrun
      obtain ⟨hC, halong'⟩ := halong s' hs'
      exact ih (hstep s a s' hinv hC hs') halong' hrest

/-- An invariant that no step breaks holds after every run. -/
theorem run_inv_of_step {Inv : σ → Prop} (hstep : ∀ s a s', Inv s → step s a = some s' → Inv s')
    {s t : σ} {as : List α} (hinv : Inv s) (hrun : run step s as = some t) : Inv t :=
  run_inv (C := fun _ _ _ => True) (fun s a s' h _ => hstep s a s' h) hinv
    (along_of_forall fun _ _ _ _ => trivial) hrun

/-- **Runs are finite** whose steps all make a measure smaller. -/
theorem length_add_le_of_lt {measure : σ → ℕ} {C : α → Prop}
    (hstep : ∀ s a s', C a → step s a = some s' → measure s' < measure s) :
    ∀ {s t : σ} {as : List α}, (∀ a ∈ as, C a) → run step s as = some t →
      as.length + measure t ≤ measure s := by
  intro s t as
  induction as generalizing s with
  | nil =>
      intro _ hrun
      cases hrun
      simp
  | cons a as ih =>
      intro hC hrun
      obtain ⟨s', hs', hrest⟩ := run_cons.1 hrun
      have hlt := hstep s a s' (hC a List.mem_cons_self) hs'
      have hle := ih (fun b hb => hC b (List.mem_cons_of_mem _ hb)) hrest
      simp only [List.length_cons]
      omega

/-- What an invariant and the condition on a step give for the step, they give for every step of a
run. -/
theorem along_of_inv {Inv : σ → Prop} {C P : σ → α → σ → Prop}
    (hstep : ∀ s a s', Inv s → C s a s' → step s a = some s' → Inv s' ∧ P s a s') :
    ∀ {s : σ} {as : List α}, Inv s → Along step C s as → Along step P s as := by
  intro s as
  induction as generalizing s with
  | nil => exact fun _ _ => trivial
  | cons a as ih =>
      intro hinv halong s' hs'
      obtain ⟨hC, halong'⟩ := halong s' hs'
      obtain ⟨hinv', hP⟩ := hstep s a s' hinv hC hs'
      exact ⟨hP, ih hinv' halong'⟩

/-- **When a property is never lost**: if under an invariant a step from a state with the property
leads to a state with the property exactly when it meets a condition, then the property holds in
every state of a run exactly if every step of the run meets the condition. -/
theorem forall_prefix_iff_along {Inv P : σ → Prop} {C : σ → α → σ → Prop}
    (hinv : ∀ s a s', Inv s → step s a = some s' → Inv s')
    (hstep : ∀ s a s', Inv s → P s → step s a = some s' → (P s' ↔ C s a s')) :
    ∀ {s : σ} (as : List α), Inv s → P s →
      ((∀ pre, pre <+: as → ∀ t, run step s pre = some t → P t) ↔ Along step C s as) := by
  intro s as
  induction as generalizing s with
  | nil =>
      intro _ hP
      refine iff_of_true (fun pre hpre t ht => ?_) trivial
      rw [List.prefix_nil.1 hpre, run_nil, Option.some.injEq] at ht
      exact ht ▸ hP
  | cons a as ih =>
      intro hI hP
      constructor
      · intro h s' hs'
        have hfirst : P s' := h [a] ⟨as, rfl⟩ s' (run_cons.2 ⟨s', hs', rfl⟩)
        refine ⟨(hstep s a s' hI hP hs').1 hfirst, (ih (hinv s a s' hI hs') hfirst).1 ?_⟩
        intro pre hpre t ht
        exact h (a :: pre) (List.prefix_cons_inj a |>.2 hpre) t (run_cons.2 ⟨s', hs', ht⟩)
      · intro halong pre hpre t ht
        match pre, hpre with
        | [], _ =>
            cases ht
            exact hP
        | b :: pre, hpre =>
            obtain ⟨rfl, hpre'⟩ := List.cons_prefix_cons.1 hpre
            obtain ⟨s', hs', ht'⟩ := run_cons.1 ht
            obtain ⟨hC, halong'⟩ := halong s' hs'
            exact (ih (hinv s b s' hI hs') ((hstep s b s' hI hP hs').2 hC)).2 halong' pre hpre' t
              ht'

/-! ### Loops that can fail -/

section Loops

universe u

variable {ε α : Type*} {β γ : Type u} {f : β → α → Except ε β}

theorem ok_bind (b : β) (g : β → Except ε γ) : ((Except.ok b : Except ε β) >>= g) = g b := rfl

theorem bind_eq_ok_iff {x : Except ε β} {g : β → Except ε γ} {c : γ} :
    x >>= g = .ok c ↔ ∃ b, x = .ok b ∧ g b = .ok c := by
  cases x with
  | error e => simp [bind, Except.bind]
  | ok b => simp [bind, Except.bind]

/-- A loop that ends without an error went over every element without one. -/
theorem ok_of_mem_foldlM {l : List α} {a : α} (ha : a ∈ l) :
    ∀ {b b' : β}, l.foldlM f b = .ok b' → ∃ c c', f c a = .ok c' := by
  induction l with
  | nil => simp at ha
  | cons x l ih =>
      intro b b' h
      rw [List.foldlM_cons, bind_eq_ok_iff] at h
      obtain ⟨b₁, hb₁, h⟩ := h
      rcases List.mem_cons.1 ha with rfl | ha
      · exact ⟨b, b₁, hb₁⟩
      · exact ih ha h

/-- A loop over one list and then another. -/
theorem foldlM_append_eq_ok {l r : List α} {b c : β} :
    (l ++ r).foldlM f b = .ok c ↔ ∃ b', l.foldlM f b = .ok b' ∧ r.foldlM f b' = .ok c := by
  rw [List.foldlM_append, bind_eq_ok_iff]

/-- What every step of a loop keeps, the loop keeps. -/
theorem foldlM_inv {P : β → Prop} {l : List α}
    (hstep : ∀ a ∈ l, ∀ b b', P b → f b a = .ok b' → P b') :
    ∀ {b b' : β}, P b → l.foldlM f b = .ok b' → P b' := by
  induction l with
  | nil =>
      intro b b' hP h
      obtain rfl := Except.ok.inj h
      exact hP
  | cons x l ih =>
      intro b b' hP h
      rw [List.foldlM_cons, bind_eq_ok_iff] at h
      obtain ⟨b₁, hb₁, h⟩ := h
      exact ih (fun a ha => hstep a (List.mem_cons_of_mem _ ha))
        (hstep x List.mem_cons_self b b₁ hP hb₁) h

/-- Where a loop fails. -/
theorem foldlM_eq_error {l : List α} {e : ε} :
    ∀ {b : β}, l.foldlM f b = .error e →
      ∃ before a after b', l = before ++ a :: after ∧ before.foldlM f b = .ok b' ∧
        f b' a = .error e := by
  induction l with
  | nil => exact fun h => by cases h
  | cons x l ih =>
      intro b h
      cases hx : f b x with
      | error e' =>
          rw [List.foldlM_cons, hx] at h
          obtain rfl : e' = e := Except.error.inj h
          exact ⟨[], x, l, b, rfl, rfl, hx⟩
      | ok b₁ =>
          rw [List.foldlM_cons, hx] at h
          obtain ⟨before, a, after, b', rfl, hbefore, ha⟩ := ih h
          refine ⟨x :: before, a, after, b', rfl, ?_, ha⟩
          rw [List.foldlM_cons, hx]
          exact hbefore

/-- **What a loop does**: if every step succeeds and its states are related, so are the states
before and after the loop, and the state after each of the steps and the last one. -/
theorem foldlM_spec {R : β → β → Prop} (hrefl : ∀ b, R b b)
    (htrans : ∀ b c d, R b c → R c d → R b d) {l : List α}
    (hstep : ∀ a ∈ l, ∀ b, ∃ b', f b a = .ok b' ∧ R b b') :
    ∀ b, ∃ b', l.foldlM f b = .ok b' ∧ R b b' ∧ ∀ a ∈ l, ∃ c c', f c a = .ok c' ∧ R c' b' := by
  induction l with
  | nil => exact fun b => ⟨b, rfl, hrefl b, by simp⟩
  | cons x l ih =>
      intro b
      obtain ⟨b₁, hb₁, hR₁⟩ := hstep x (by simp) b
      obtain ⟨b', hb', hR, hall⟩ := ih (fun a ha => hstep a (by simp [ha])) b₁
      refine ⟨b', ?_, htrans b b₁ b' hR₁ hR, ?_⟩
      · rw [List.foldlM_cons, hb₁]
        exact hb'
      · intro a ha
        rcases List.mem_cons.1 ha with rfl | ha
        · exact ⟨b, b₁, hb₁, hR⟩
        · exact hall a ha

/-- A loop whose steps keep `T`, a relation between the elements before and the state, as long as
they are allowed. -/
theorem foldlM_track {T : List α → β → Prop} {b : β} {l : List α} (hnil : T [] b)
    (hstep : ∀ before a c, before ++ [a] <+: l → before.foldlM f b = .ok c → T before c →
      ∃ c', f c a = .ok c' ∧ T (before ++ [a]) c') :
    ∀ before, before <+: l → ∃ c, before.foldlM f b = .ok c ∧ T before c := by
  intro before
  induction before using List.reverseRecOn with
  | nil => exact fun _ => ⟨b, rfl, hnil⟩
  | append_singleton before a ih =>
      intro hprefix
      obtain ⟨c, hc, hT⟩ := ih ((List.prefix_append before [a]).trans hprefix)
      obtain ⟨c', hc', hT'⟩ := hstep before a c hprefix hc hT
      refine ⟨c', foldlM_append_eq_ok.2 ⟨c, hc, ?_⟩, hT'⟩
      rw [List.foldlM_cons, hc']
      rfl

/-- **When a loop never fails**: if a step succeeds and leads to a state with `P` exactly when the
elements before it allow it, then it does so all the way exactly if every step is allowed. -/
theorem forall_prefix_foldlM_iff {T : List α → β → Prop} {G : List α → α → Prop} {P : β → Prop}
    (hP : ∀ before c, T before c → P c)
    (hallowed : ∀ before a c, T before c → G before a →
      ∃ c', f c a = .ok c' ∧ T (before ++ [a]) c')
    (hforced : ∀ before a c c', T before c → f c a = .ok c' → P c' → G before a)
    {b : β} (hnil : T [] b) (l : List α) :
    (∀ before, before <+: l → ∃ c, before.foldlM f b = .ok c ∧ P c) ↔
      ∀ before a, before ++ [a] <+: l → G before a := by
  constructor
  · intro h before a hprefix
    have hG : ∀ before a c, before ++ [a] <+: l → before.foldlM f b = .ok c → T before c →
        G before a := by
      intro before a c hprefix hc hT
      obtain ⟨c', hc', hPc'⟩ := h _ hprefix
      obtain ⟨d, hd, hlast⟩ := foldlM_append_eq_ok.1 hc'
      obtain rfl := Except.ok.inj (hc.symm.trans hd)
      rw [List.foldlM_cons, bind_eq_ok_iff] at hlast
      obtain ⟨e, he, hlast⟩ := hlast
      obtain rfl := Except.ok.inj hlast
      exact hforced before a c e hT he hPc'
    obtain ⟨c, hc, hT⟩ := foldlM_track hnil
      (fun before a c hprefix hc hT => hallowed before a c hT (hG before a c hprefix hc hT))
      before ((List.prefix_append before [a]).trans hprefix)
    exact hG before a c hprefix hc hT
  · intro h before hprefix
    obtain ⟨c, hc, hT⟩ := foldlM_track hnil
      (fun before a c hprefix _ hT => hallowed before a c hT (h before a hprefix)) before hprefix
    exact ⟨c, hc, hP before c hT⟩

end Loops

end Runs
