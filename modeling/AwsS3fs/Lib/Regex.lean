/-
**Regular expressions that are matched by backtracking.**

A library such as PCRE does not decide whether a text is in a language: it tries the ways to match
an expression one after the other, a repetition with as many characters as it can get first, and
the first way that works determines the groups it delivers.  Here an expression is given by the
list of all its ways to match at the beginning of a text, in the order in which they are tried.
The first of them is the match that is found, and that there is one is a question about membership.

Main definitions:

* `Regex`, `Regex.Match`, `Regex.literal` — expressions, what a match delivers, and the expression
  for one text;
* `Regex.attempts` — the ways to match at the beginning of a text, in the order they are tried;
* `Regex.search`, `Regex.replace` — the leftmost match that is not empty, and the text with every
  such match replaced;
* `Regex.Matches`, `Regex.OccursIn` — the language of an expression, without any order;
* `Regex.trim` — the expression for what surrounds a text.

Main results:

* `Regex.exists_attempt_iff` — **an attempt succeeds if and only if the text is in the language**;
* `Regex.search_eq_none_iff` — a search fails if and only if the expression does not occur;
* `Regex.head?_attempts_run`, `Regex.head?_attempts_seq` — the first attempt, step by step;
* `Regex.head?_attempts_upTo` — a run goes on up to the last occurrence of the text after it;
* `Regex.replace_trim` — **what is left after trimming**.
-/

import Mathlib.Data.List.DropRight
import Mathlib.Data.List.Basic

set_option relaxedAutoImplicit false
set_option autoImplicit false

/-- A regular expression over an alphabet. -/
inductive Regex (α : Type*)
  /-- `[p]{lo,hi}`, as many characters as possible first; without `hi` there is no upper bound. -/
  | run (p : α → Bool) (lo : ℕ) (hi : Option ℕ)
  | seq (r t : Regex α)
  | alt (r t : Regex α)
  | group (n : ℕ) (r : Regex α)
  /-- `^`. -/
  | bos
  /-- `$`: the end of the text, or before a last character that ends a line. -/
  | eos (newline : α → Bool)

namespace Regex

variable {α : Type*}

/-- A match at the beginning of a text: the part that is matched, the groups with their numbers,
and the rest of the text. -/
structure Match (α : Type*) where
  text : List α
  groups : List (ℕ × List α)
  rest : List α

namespace Match

/-- A match and one of the rest. -/
def append (m m' : Match α) : Match α := ⟨m.text ++ m'.text, m.groups ++ m'.groups, m'.rest⟩

/-- The text of a group, empty if the group was not matched. -/
def fetch (m : Match α) (n : ℕ) : List α := ((m.groups.find? (·.1 = n)).map (·.2)).getD []

end Match

/-- The number of characters that a run takes if it takes as many as it can. -/
def greedy (p : α → Bool) (hi : Option ℕ) (s : List α) : ℕ :=
  match hi with
  | none => (s.takeWhile p).length
  | some h => min h (s.takeWhile p).length

/-- The ways to match at the beginning of a text, in the order in which they are tried.  The flag
says that nothing comes before the text. -/
def attempts : Regex α → Bool → List α → List (Match α)
  | run p lo hi, _, s =>
      ((List.range (greedy p hi s + 1)).reverse.filter (lo ≤ ·)).map fun n =>
        ⟨s.take n, [], s.drop n⟩
  | seq r t, first, s =>
      (r.attempts first s).flatMap fun m =>
        (t.attempts (first && m.text.isEmpty) m.rest).map m.append
  | alt r t, first, s => r.attempts first s ++ t.attempts first s
  | group n r, first, s =>
      (r.attempts first s).map fun m => { m with groups := m.groups ++ [(n, m.text)] }
  | bos, first, s => if first then [⟨[], [], s⟩] else []
  | eos newline, _, s =>
      if s.length ≤ 1 ∧ ∀ c ∈ s, newline c = true then [⟨[], [], s⟩] else []

/-- The expression for one text. -/
def literal [DecidableEq α] : List α → Regex α
  | [] => run (fun _ => false) 0 none
  | c :: s => seq (run (· = c) 1 (some 1)) (literal s)

/-- There is no group in the expression. -/
def ungrouped : Regex α → Bool
  | run _ _ _ => true
  | seq r t => r.ungrouped && t.ungrouped
  | alt r t => r.ungrouped && t.ungrouped
  | group _ _ => false
  | bos => true
  | eos _ => true

/-- The leftmost match that is not empty, and the text before it. -/
def search (r : Regex α) : Bool → List α → Option (List α × Match α)
  | first, [] => ((r.attempts first []).find? (!·.text.isEmpty)).map ([], ·)
  | first, c :: s =>
      match (r.attempts first (c :: s)).find? (!·.text.isEmpty) with
      | some m => some ([], m)
      | none => (search r false s).map fun found => (c :: found.1, found.2)

/-- The text with every match replaced, in at most `fuel` rounds. -/
def replaceFrom (r : Regex α) (replacement : List α) : ℕ → Bool → List α → List α
  | 0, _, s => s
  | fuel + 1, first, s =>
      match r.search first s with
      | none => s
      | some (before, m) => before ++ replacement ++ replaceFrom r replacement fuel false m.rest

/-- The text with every match replaced.  No match is empty, so there are not more rounds than
characters. -/
def replace (r : Regex α) (replacement s : List α) : List α :=
  r.replaceFrom replacement s.length true s

/-! ### The language of an expression -/

/-- An expression describes a text that `rest` comes after.  The flag says that nothing comes
before it. -/
inductive Matches : Regex α → Bool → List α → List α → Prop
  | run {p : α → Bool} {lo : ℕ} {hi : Option ℕ} {first : Bool} {a rest : List α}
      (hlo : lo ≤ a.length) (hhi : ∀ h ∈ hi, a.length ≤ h) (ha : ∀ c ∈ a, p c = true) :
      Matches (.run p lo hi) first a rest
  | seq {r t : Regex α} {first : Bool} {a b rest : List α} (hr : Matches r first a (b ++ rest))
      (ht : Matches t (first && a.isEmpty) b rest) : Matches (.seq r t) first (a ++ b) rest
  | altLeft {r t : Regex α} {first : Bool} {a rest : List α} (hr : Matches r first a rest) :
      Matches (.alt r t) first a rest
  | altRight {r t : Regex α} {first : Bool} {a rest : List α} (ht : Matches t first a rest) :
      Matches (.alt r t) first a rest
  | group {n : ℕ} {r : Regex α} {first : Bool} {a rest : List α} (hr : Matches r first a rest) :
      Matches (.group n r) first a rest
  | bos {rest : List α} : Matches .bos true [] rest
  | eos {newline : α → Bool} {first : Bool} {rest : List α} (hlen : rest.length ≤ 1)
      (hnewline : ∀ c ∈ rest, newline c = true) : Matches (.eos newline) first [] rest

/-- Somewhere in a text there is a part, not empty, that the expression describes. -/
def OccursIn (r : Regex α) (first : Bool) (s : List α) : Prop :=
  ∃ before a rest, s = before ++ a ++ rest ∧ a ≠ [] ∧
    Matches r (first && before.isEmpty) a rest

variable {r t : Regex α} {first : Bool} {s : List α} {m : Match α}

/-! ### Attempts -/

theorem le_greedy_iff {p : α → Bool} {hi : Option ℕ} {n : ℕ} :
    n ≤ greedy p hi s ↔ n ≤ (s.takeWhile p).length ∧ ∀ h ∈ hi, n ≤ h := by
  cases hi with
  | none => simp [greedy]
  | some h =>
      simp only [greedy, Option.mem_some_iff, forall_eq']
      omega

/-- The beginnings of a text that consist of accepted characters. -/
theorem le_length_takeWhile_iff {p : α → Bool} {n : ℕ} :
    n ≤ (s.takeWhile p).length ↔ n ≤ s.length ∧ ∀ c ∈ s.take n, p c = true := by
  induction s generalizing n with
  | nil => simp
  | cons c s ih =>
      cases n with
      | zero => simp
      | succ n =>
          cases hc : p c with
          | false => simp [hc]
          | true => simp [hc, ih]

theorem mem_attempts_run {p : α → Bool} {lo : ℕ} {hi : Option ℕ} :
    m ∈ (run p lo hi).attempts first s ↔
      s = m.text ++ m.rest ∧ m.groups = [] ∧ lo ≤ m.text.length ∧ (∀ h ∈ hi, m.text.length ≤ h) ∧
        ∀ c ∈ m.text, p c = true := by
  simp only [attempts, List.mem_map, List.mem_filter, List.mem_reverse, List.mem_range,
    Nat.lt_succ_iff, decide_eq_true_eq, le_greedy_iff, le_length_takeWhile_iff]
  constructor
  · rintro ⟨n, ⟨⟨⟨hlen, hp⟩, hhi⟩, hlo⟩, rfl⟩
    have hn : (s.take n).length = n := List.length_take_of_le hlen
    exact ⟨(List.take_append_drop n s).symm, rfl, hn.symm ▸ hlo, hn.symm ▸ hhi, hp⟩
  · rintro ⟨hs, hgroups, hlo, hhi, hp⟩
    obtain ⟨text, groups, rest⟩ := m
    obtain rfl : groups = [] := hgroups
    subst hs
    exact ⟨text.length, ⟨⟨⟨by simp, by simpa using hp⟩, hhi⟩, hlo⟩, by simp⟩

theorem mem_attempts_seq :
    m ∈ (seq r t).attempts first s ↔
      ∃ m₁ ∈ r.attempts first s, ∃ m₂ ∈ t.attempts (first && m₁.text.isEmpty) m₁.rest,
        m = m₁.append m₂ := by
  simp only [attempts, List.mem_flatMap, List.mem_map, eq_comm]

theorem mem_attempts_group {n : ℕ} :
    m ∈ (group n r).attempts first s ↔
      ∃ m₁ ∈ r.attempts first s, m = { m₁ with groups := m₁.groups ++ [(n, m₁.text)] } := by
  simp only [attempts, List.mem_map, eq_comm]

theorem groups_of_ungrouped (hr : r.ungrouped = true) (h : m ∈ r.attempts first s) :
    m.groups = [] := by
  induction r generalizing first s m with
  | run p lo hi => exact (mem_attempts_run.1 h).2.1
  | seq r t ihr iht =>
      obtain ⟨hr, ht⟩ := Bool.and_eq_true_iff.1 hr
      obtain ⟨m₁, h₁, m₂, h₂, rfl⟩ := mem_attempts_seq.1 h
      rw [Match.append, ihr hr h₁, iht ht h₂, List.append_nil]
  | alt r t ihr iht =>
      obtain ⟨hr, ht⟩ := Bool.and_eq_true_iff.1 hr
      rcases List.mem_append.1 h with h | h
      · exact ihr hr h
      · exact iht ht h
  | group n r => cases hr
  | bos =>
      rw [attempts] at h
      split at h
      · rw [List.mem_singleton.1 h]
      · cases h
  | eos newline =>
      rw [attempts] at h
      split at h
      · rw [List.mem_singleton.1 h]
      · cases h

@[simp]
theorem ungrouped_literal [DecidableEq α] (w : List α) : (literal w).ungrouped = true := by
  induction w with
  | nil => rfl
  | cons c w ih => exact ih

/-- Every attempt takes the beginning of the text. -/
theorem eq_append_of_mem_attempts (h : m ∈ r.attempts first s) : s = m.text ++ m.rest := by
  induction r generalizing first s m with
  | run p lo hi => exact (mem_attempts_run.1 h).1
  | seq r t ihr iht =>
      obtain ⟨m₁, h₁, m₂, h₂, rfl⟩ := mem_attempts_seq.1 h
      rw [ihr h₁, iht h₂, Match.append, List.append_assoc]
  | alt r t ihr iht =>
      rcases List.mem_append.1 h with h | h
      · exact ihr h
      · exact iht h
  | group n r ih =>
      obtain ⟨m₁, h₁, rfl⟩ := mem_attempts_group.1 h
      exact ih (m := m₁) h₁
  | bos =>
      rw [attempts] at h
      split at h
      · rw [List.mem_singleton.1 h, List.nil_append]
      · simp at h
  | eos newline =>
      rw [attempts] at h
      split at h
      · rw [List.mem_singleton.1 h, List.nil_append]
      · simp at h

theorem matches_of_mem_attempts (h : m ∈ r.attempts first s) :
    Matches r first m.text m.rest := by
  induction r generalizing first s m with
  | run p lo hi =>
      obtain ⟨-, -, hlo, hhi, hp⟩ := mem_attempts_run.1 h
      exact .run hlo hhi hp
  | seq r t ihr iht =>
      obtain ⟨m₁, h₁, m₂, h₂, rfl⟩ := mem_attempts_seq.1 h
      have hrest := eq_append_of_mem_attempts h₂
      exact .seq (hrest ▸ ihr h₁) (iht h₂)
  | alt r t ihr iht =>
      rcases List.mem_append.1 h with h | h
      · exact .altLeft (ihr h)
      · exact .altRight (iht h)
  | group n r ih =>
      obtain ⟨m₁, h₁, rfl⟩ := mem_attempts_group.1 h
      exact .group (ih (m := m₁) h₁)
  | bos =>
      rw [attempts] at h
      split at h
      · rename_i hfirst
        rw [List.mem_singleton.1 h, hfirst]
        exact .bos
      · simp at h
  | eos newline =>
      rw [attempts] at h
      split at h
      · rename_i hend
        rw [List.mem_singleton.1 h]
        exact .eos hend.1 hend.2
      · simp at h

theorem exists_mem_attempts {a rest : List α} (h : Matches r first a rest) :
    ∃ m ∈ r.attempts first (a ++ rest), m.text = a ∧ m.rest = rest := by
  induction h with
  | @run p lo hi first a rest hlo hhi ha =>
      exact ⟨⟨a, [], rest⟩, mem_attempts_run.2 ⟨rfl, rfl, hlo, hhi, ha⟩, rfl, rfl⟩
  | @seq r t first a b rest hr ht ihr iht =>
      obtain ⟨m₁, h₁, rfl, hrest₁⟩ := ihr
      obtain ⟨m₂, h₂, rfl, hrest₂⟩ := iht
      rw [← hrest₁] at h₂
      rw [List.append_assoc]
      exact ⟨m₁.append m₂, mem_attempts_seq.2 ⟨m₁, h₁, m₂, h₂, rfl⟩, rfl, hrest₂⟩
  | altLeft _ ih =>
      obtain ⟨m, hm, htext, hrest⟩ := ih
      exact ⟨m, List.mem_append_left _ hm, htext, hrest⟩
  | altRight _ ih =>
      obtain ⟨m, hm, htext, hrest⟩ := ih
      exact ⟨m, List.mem_append_right _ hm, htext, hrest⟩
  | group _ ih =>
      obtain ⟨m, hm, htext, hrest⟩ := ih
      exact ⟨_, mem_attempts_group.2 ⟨m, hm, rfl⟩, htext, hrest⟩
  | @bos rest => exact ⟨⟨[], [], rest⟩, by simp [attempts], rfl, rfl⟩
  | @eos newline first rest hlen hnewline =>
      refine ⟨⟨[], [], rest⟩, ?_, rfl, rfl⟩
      rw [attempts, List.nil_append, if_pos ⟨hlen, hnewline⟩]
      exact List.mem_singleton_self _

/-- **An attempt succeeds if and only if the text is in the language.** -/
theorem exists_attempt_iff {a rest : List α} :
    (∃ m ∈ r.attempts first s, m.text = a ∧ m.rest = rest) ↔
      s = a ++ rest ∧ Matches r first a rest := by
  constructor
  · rintro ⟨m, hm, rfl, rfl⟩
    exact ⟨eq_append_of_mem_attempts hm, matches_of_mem_attempts hm⟩
  · rintro ⟨rfl, h⟩
    exact exists_mem_attempts h

/-! ### Searching -/

theorem eq_nil_of_attempts (h : (r.attempts first s).find? (!·.text.isEmpty) = none)
    {a rest : List α} (hs : s = a ++ rest) (hmatches : Matches r first a rest) : a = [] := by
  obtain ⟨m, hm, rfl, -⟩ := exists_attempt_iff.2 ⟨hs, hmatches⟩
  simpa using List.find?_eq_none.1 h m hm

/-- What a search finds. -/
theorem search_spec {before : List α} (h : r.search first s = some (before, m)) :
    s = before ++ m.text ++ m.rest ∧ m.text ≠ [] ∧
      m ∈ r.attempts (first && before.isEmpty) (m.text ++ m.rest) := by
  have key : ∀ {first : Bool} {s : List α} {m : Match α},
      (r.attempts first s).find? (!·.text.isEmpty) = some m →
        s = m.text ++ m.rest ∧ m.text ≠ [] ∧ m ∈ r.attempts first s := by
    intro first s m h
    have hm := List.mem_of_find?_eq_some h
    exact ⟨eq_append_of_mem_attempts hm, by simpa using List.find?_some h, hm⟩
  induction s generalizing first before with
  | nil =>
      rw [search, Option.map_eq_some_iff] at h
      obtain ⟨m', hm', heq⟩ := h
      obtain ⟨rfl, rfl⟩ := Prod.mk.inj heq
      obtain ⟨hs, htext, hm⟩ := key hm'
      exact ⟨hs, htext, by simpa [← hs] using hm⟩
  | cons c s ih =>
      rw [search] at h
      split at h
      · rename_i m' hm'
        obtain ⟨rfl, rfl⟩ := Prod.mk.inj (Option.some.inj h)
        obtain ⟨hs, htext, hm⟩ := key hm'
        exact ⟨hs, htext, by simpa [← hs] using hm⟩
      · obtain ⟨⟨before', m'⟩, hfound, heq⟩ := Option.map_eq_some_iff.1 h
        obtain ⟨rfl, rfl⟩ := Prod.mk.inj heq
        obtain ⟨hs, htext, hm⟩ := ih hfound
        refine ⟨?_, htext, by simpa using hm⟩
        rw [hs, List.cons_append, List.cons_append]

/-- **A search fails if and only if the expression does not occur.** -/
theorem search_eq_none_iff : r.search first s = none ↔ ¬ r.OccursIn first s := by
  constructor
  · rintro h ⟨before, a, rest, rfl, ha, hmatches⟩
    induction before generalizing first with
    | nil =>
        have hnone : (r.attempts first (a ++ rest)).find? (!·.text.isEmpty) = none := by
          cases hs : a ++ rest with
          | nil => simp [ha] at hs
          | cons c s =>
              rw [List.nil_append, hs, search] at h
              split at h
              · cases h
              · assumption
        exact ha (eq_nil_of_attempts hnone rfl (by simpa using hmatches))
    | cons c before ih =>
        rw [List.cons_append, List.cons_append, search] at h
        split at h
        · cases h
        · exact ih (Option.map_eq_none_iff.1 h) (by simpa using hmatches)
  · intro h
    cases hsearch : r.search first s with
    | none => rfl
    | some found =>
        obtain ⟨hs, htext, hm⟩ := search_spec hsearch
        exact absurd ⟨_, _, _, hs, htext, matches_of_mem_attempts hm⟩ h

/-- A search goes on where no attempt succeeds. -/
theorem search_append {before : List α}
    (h : ∀ c ∈ before, ∀ first s, r.attempts first (c :: s) = []) :
    r.search first (before ++ s) =
      (r.search (first && before.isEmpty) s).map fun found => (before ++ found.1, found.2) := by
  induction before generalizing first with
  | nil => simp
  | cons c before ih =>
      rw [List.cons_append, search, h c (by simp), List.find?_nil,
        ih fun c hc => h c (List.mem_cons_of_mem _ hc)]
      simp [Option.map_map, Function.comp_def]

/-- Where the first attempt succeeds, and not with the empty text, the search is over. -/
theorem search_of_head? (h : (r.attempts first s).head? = some m) (htext : m.text ≠ []) :
    r.search first s = some ([], m) := by
  have hfind : (r.attempts first s).find? (!·.text.isEmpty) = some m := by
    cases hattempts : r.attempts first s with
    | nil => simp [hattempts] at h
    | cons m' l =>
        rw [hattempts, List.head?_cons, Option.some_inj] at h
        rw [h, List.find?_cons_of_pos (by simpa using htext)]
  cases s with
  | nil => rw [search, hfind, Option.map_some]
  | cons c s => rw [search, hfind]

/-! ### The first attempt -/

/-- The first attempt of a run takes all that it can. -/
theorem head?_attempts_run {p : α → Bool} {lo : ℕ} {hi : Option ℕ} {a rest : List α}
    (hlo : lo ≤ a.length) (hhi : ∀ h ∈ hi, a.length ≤ h) (ha : ∀ c ∈ a, p c = true)
    (hrest : hi = some a.length ∨ ∀ c ∈ rest.head?, p c = false) :
    ((run p lo hi).attempts first (a ++ rest)).head? = some ⟨a, [], rest⟩ := by
  have htake : (a ++ rest).takeWhile p = a ++ rest.takeWhile p :=
    List.takeWhile_append_of_pos ha
  have hgreedy : greedy p hi (a ++ rest) = a.length := by
    rcases hrest with rfl | hrest
    · rw [greedy, htake, List.length_append, min_eq_left (Nat.le_add_right _ _)]
    · have hnil : rest.takeWhile p = [] := by
        cases rest with
        | nil => rfl
        | cons c rest => simp [hrest c rfl]
      rw [hnil, List.append_nil] at htake
      cases hi with
      | none => rw [greedy, htake]
      | some h => rw [greedy, htake, min_eq_right (hhi h rfl)]
  rw [attempts, hgreedy, List.range_succ, List.reverse_append, List.reverse_singleton,
    List.singleton_append, List.filter_cons_of_pos (by simpa using hlo), List.map_cons,
    List.head?_cons, List.take_left, List.drop_left]

/-- What is left after a run does not go on with it. -/
theorem not_of_head?_dropWhile {p : α → Bool} {c : α} (hc : c ∈ (s.dropWhile p).head?) :
    p c = false := by
  have hnot := List.head?_dropWhile_not p s
  rw [Option.mem_def.1 hc] at hnot
  exact hnot

/-- The same for a run without an upper bound. -/
theorem head?_attempts_run_none {p : α → Bool} {lo : ℕ} (hlo : lo ≤ (s.takeWhile p).length) :
    ((run p lo none).attempts first s).head? = some ⟨s.takeWhile p, [], s.dropWhile p⟩ := by
  have hrest : ∀ c ∈ (s.dropWhile p).head?, p c = false := fun c hc => not_of_head?_dropWhile hc
  have hrun : ((run p lo none).attempts first (s.takeWhile p ++ s.dropWhile p)).head? =
      some ⟨s.takeWhile p, [], s.dropWhile p⟩ :=
    head?_attempts_run hlo (by simp) (fun c hc => List.mem_takeWhile_imp hc) (.inr hrest)
  rwa [List.takeWhile_append_dropWhile] at hrun

/-- The first attempt of a sequence, if both parts succeed with their first attempts. -/
theorem head?_attempts_seq {m₁ m₂ : Match α} (h₁ : (r.attempts first s).head? = some m₁)
    (h₂ : (t.attempts (first && m₁.text.isEmpty) m₁.rest).head? = some m₂) :
    ((seq r t).attempts first s).head? = some (m₁.append m₂) := by
  obtain ⟨l₁, hl₁⟩ := List.head?_eq_some_iff.1 h₁
  obtain ⟨l₂, hl₂⟩ := List.head?_eq_some_iff.1 h₂
  rw [attempts, hl₁, List.flatMap_cons, hl₂, List.map_cons, List.cons_append, List.head?_cons]

/-- A sequence goes on after the only attempt of its first part. -/
theorem attempts_seq_of_eq_singleton {m₁ : Match α} (h : r.attempts first s = [m₁]) :
    (seq r t).attempts first s =
      (t.attempts (first && m₁.text.isEmpty) m₁.rest).map m₁.append := by
  rw [attempts, h, List.flatMap_singleton]

/-- The first attempt of a sequence belongs to the first attempt of its first part after which the
second part succeeds. -/
theorem of_head?_attempts_seq {R : Match α → Match α → Prop}
    (hpairwise : (r.attempts first s).Pairwise R)
    (h : ((seq r t).attempts first s).head? = some m) :
    ∃ m₁ ∈ r.attempts first s, ∃ m₂ ∈ t.attempts (first && m₁.text.isEmpty) m₁.rest,
      m = m₁.append m₂ ∧ ∀ m' ∈ r.attempts first s,
        t.attempts (first && m'.text.isEmpty) m'.rest ≠ [] → m' = m₁ ∨ R m₁ m' := by
  rw [attempts] at h
  revert hpairwise h
  generalize r.attempts first s = l
  intro hpairwise h
  induction l with
  | nil => cases h
  | cons m₀ l ih =>
      obtain ⟨hfirst, hpairwise⟩ := List.pairwise_cons.1 hpairwise
      rw [List.flatMap_cons] at h
      cases hattempts : t.attempts (first && m₀.text.isEmpty) m₀.rest with
      | nil =>
          rw [hattempts, List.map_nil, List.nil_append] at h
          obtain ⟨m₁, h₁, m₂, h₂, hm, hbest⟩ := ih hpairwise h
          refine ⟨m₁, List.mem_cons_of_mem _ h₁, m₂, h₂, hm, fun m' hm' hne => ?_⟩
          rcases List.mem_cons.1 hm' with rfl | hm'
          · exact absurd hattempts hne
          · exact hbest m' hm' hne
      | cons m₂ l₂ =>
          rw [hattempts, List.map_cons, List.cons_append, List.head?_cons, Option.some_inj] at h
          refine ⟨m₀, List.mem_cons_self, m₂, hattempts ▸ List.mem_cons_self, h.symm,
            fun m' hm' _ => ?_⟩
          rcases List.mem_cons.1 hm' with rfl | hm'
          · exact .inl rfl
          · exact .inr (hfirst m' hm')

theorem head?_attempts_group {n : ℕ} (h : (r.attempts first s).head? = some m) :
    ((group n r).attempts first s).head? =
      some { m with groups := m.groups ++ [(n, m.text)] } := by
  rw [attempts, List.head?_map, h, Option.map_some]

/-- A run that has to take a character does not start with one that is not accepted. -/
theorem attempts_run_eq_nil {p : α → Bool} {lo : ℕ} {hi : Option ℕ} {c : α} (hlo : 0 < lo)
    (hc : p c = false) : (run p lo hi).attempts first (c :: s) = [] := by
  rw [List.eq_nil_iff_forall_not_mem]
  intro m hm
  obtain ⟨hs, -, hlen, -, hp⟩ := mem_attempts_run.1 hm
  cases htext : m.text with
  | nil => simp [htext] at hlen; omega
  | cons d text =>
      rw [htext, List.cons_append, List.cons.injEq] at hs
      have hd := hp d (by simp [htext])
      rw [← hs.1, hc] at hd
      cases hd

theorem attempts_seq_eq_nil (h : r.attempts first s = []) : (seq r t).attempts first s = [] := by
  rw [attempts, h, List.flatMap_nil]

/-! ### Literals -/

/-- The longer attempts of a run come first. -/
theorem pairwise_attempts_run (p : α → Bool) (lo : ℕ) (hi : Option ℕ) (first : Bool) (s : List α) :
    ((run p lo hi).attempts first s).Pairwise fun m m' => m'.text.length ≤ m.text.length := by
  rw [attempts, List.pairwise_map]
  refine List.Pairwise.filter _ ?_
  rw [List.pairwise_reverse]
  refine (List.pairwise_lt_range (n := greedy p hi s + 1)).imp ?_
  intro n n' hlt
  simp only [List.length_take]
  omega

section Literal

variable [DecidableEq α] {w : List α}

theorem mem_attempts_literal :
    m ∈ (literal w).attempts first s ↔ s = w ++ m.rest ∧ m.text = w ∧ m.groups = [] := by
  induction w generalizing first s m with
  | nil =>
      rw [literal, mem_attempts_run]
      constructor
      · rintro ⟨hs, hgroups, -, -, hp⟩
        have htext : m.text = [] :=
          List.eq_nil_iff_forall_not_mem.2 fun c hc => by simpa using hp c hc
        rw [htext] at hs
        exact ⟨hs, htext, hgroups⟩
      · rintro ⟨hs, htext, hgroups⟩
        simp [htext, hs, hgroups]
  | cons c w ih =>
      rw [literal, mem_attempts_seq]
      constructor
      · rintro ⟨m₁, h₁, m₂, h₂, rfl⟩
        obtain ⟨rfl, hgroups₁, hlo, hhi, hp⟩ := mem_attempts_run.1 h₁
        obtain ⟨hrest, htext₂, hgroups₂⟩ := ih.1 h₂
        obtain ⟨d, hd⟩ := List.length_eq_one_iff.1 (le_antisymm (hhi 1 rfl) hlo)
        obtain rfl : d = c := by simpa [hd] using hp
        simp [Match.append, hd, hrest, htext₂, hgroups₁, hgroups₂]
      · rintro ⟨rfl, htext, hgroups⟩
        refine ⟨⟨[c], [], w ++ m.rest⟩, mem_attempts_run.2 (by simp), ⟨w, [], m.rest⟩,
          ih.2 ⟨rfl, rfl, rfl⟩, ?_⟩
        obtain ⟨text, groups, rest⟩ := m
        simp_all [Match.append]

theorem attempts_literal (w rest : List α) :
    (literal w).attempts first (w ++ rest) = [⟨w, [], rest⟩] := by
  induction w generalizing first with
  | nil =>
      have hnone : rest.takeWhile (fun _ => false) = [] := by
        cases rest <;> rfl
      simp [literal, attempts, greedy, hnone]
  | cons c w ih =>
      have hchar : (run (fun d => decide (d = c)) 1 (some 1)).attempts first (c :: (w ++ rest)) =
          [⟨[c], [], w ++ rest⟩] := by
        simp [attempts, greedy, List.range_succ]
      rw [literal, List.cons_append, attempts_seq_of_eq_singleton hchar, ih]
      rfl

theorem head?_attempts_literal (w rest : List α) :
    ((literal w).attempts first (w ++ rest)).head? = some ⟨w, [], rest⟩ := by
  rw [attempts_literal, List.head?_cons]

theorem attempts_literal_eq_nil (h : ¬ w <+: s) : (literal w).attempts first s = [] := by
  rw [List.eq_nil_iff_forall_not_mem]
  intro m hm
  exact h ⟨m.rest, (mem_attempts_literal.1 hm).1.symm⟩

/-! ### Up to the last occurrence of a text -/

variable {p : α → Bool} {lo : ℕ}

theorem mem_attempts_upTo :
    m ∈ (seq (run p lo none) (literal w)).attempts first s ↔
      ∃ a, s = a ++ w ++ m.rest ∧ m.text = a ++ w ∧ m.groups = [] ∧ lo ≤ a.length ∧
        ∀ c ∈ a, p c = true := by
  rw [mem_attempts_seq]
  constructor
  · rintro ⟨m₁, h₁, m₂, h₂, rfl⟩
    obtain ⟨rfl, hgroups₁, hlo, -, hp⟩ := mem_attempts_run.1 h₁
    obtain ⟨hrest, htext₂, hgroups₂⟩ := mem_attempts_literal.1 h₂
    refine ⟨m₁.text, ?_, ?_, ?_, hlo, hp⟩
    · rw [hrest, List.append_assoc, Match.append]
    · rw [Match.append, htext₂]
    · rw [Match.append, hgroups₁, hgroups₂, List.append_nil]
  · rintro ⟨a, hs, htext, hgroups, hlo, hp⟩
    refine ⟨⟨a, [], w ++ m.rest⟩, mem_attempts_run.2 ⟨?_, rfl, hlo, by simp, hp⟩,
      ⟨w, [], m.rest⟩, mem_attempts_literal.2 ⟨rfl, rfl, rfl⟩, ?_⟩
    · rw [hs, List.append_assoc]
    · obtain ⟨text, groups, rest⟩ := m
      simp only at htext hgroups
      rw [Match.append, htext, hgroups, List.append_nil]

theorem pairwise_attempts_upTo (p : α → Bool) (lo : ℕ) (w : List α) (first : Bool) (s : List α) :
    ((seq (run p lo none) (literal w)).attempts first s).Pairwise
      fun m m' => m'.text.length ≤ m.text.length := by
  rw [attempts, List.pairwise_flatMap]
  constructor
  · intro m₁ _
    rw [List.pairwise_map]
    refine List.pairwise_of_forall_mem_list ?_
    intro m₂ h₂ m₃ h₃
    rw [Match.append, Match.append, (mem_attempts_literal.1 h₂).2.1,
      (mem_attempts_literal.1 h₃).2.1]
  · refine (pairwise_attempts_run p lo none first s).imp ?_
    intro m₁ m₁' hle m hm m' hm'
    obtain ⟨m₂, h₂, rfl⟩ := List.mem_map.1 hm
    obtain ⟨m₂', h₂', rfl⟩ := List.mem_map.1 hm'
    simp only [Match.append, (mem_attempts_literal.1 h₂).2.1, (mem_attempts_literal.1 h₂').2.1,
      List.length_append]
    omega

/-- The first attempt is as long as any. -/
theorem length_le_of_head? {m₀ : Match α}
    (hhead : ((seq (run p lo none) (literal w)).attempts first s).head? = some m₀)
    (hm : m ∈ (seq (run p lo none) (literal w)).attempts first s) :
    m.text.length ≤ m₀.text.length := by
  obtain ⟨l, hl⟩ := List.head?_eq_some_iff.1 hhead
  have hpairwise := pairwise_attempts_upTo p lo w first s
  rw [hl] at hm hpairwise
  rcases List.mem_cons.1 hm with rfl | hm
  · exact le_refl _
  · exact (List.pairwise_cons.1 hpairwise).1 m hm

/-- **A run goes on up to the last occurrence of the text that comes after it.** -/
theorem head?_attempts_upTo (hm : m ∈ (seq (run p lo none) (literal w)).attempts first s)
    (hlongest : ∀ m' ∈ (seq (run p lo none) (literal w)).attempts first s,
      m'.text.length ≤ m.text.length) :
    ((seq (run p lo none) (literal w)).attempts first s).head? = some m := by
  cases hhead : ((seq (run p lo none) (literal w)).attempts first s).head? with
  | none =>
      rw [List.head?_eq_none_iff.1 hhead] at hm
      cases hm
  | some m₀ =>
      -- two attempts of the same length are the same
      have hm₀ := List.mem_of_mem_head? hhead
      have hlen := le_antisymm (length_le_of_head? hhead hm) (hlongest m₀ hm₀)
      have hsplit := (eq_append_of_mem_attempts hm).symm.trans (eq_append_of_mem_attempts hm₀)
      obtain ⟨htext, hrest⟩ := List.append_inj hsplit hlen
      obtain ⟨_, -, -, hgroups, -⟩ := mem_attempts_upTo.1 hm
      obtain ⟨_, -, -, hgroups₀, -⟩ := mem_attempts_upTo.1 hm₀
      obtain ⟨text, groups, rest⟩ := m
      obtain ⟨text₀, groups₀, rest₀⟩ := m₀
      simp only at htext hrest hgroups hgroups₀
      rw [htext, hrest, hgroups, hgroups₀]

end Literal

/-! ### Alternatives -/

theorem attempts_seq_alt {r' : Regex α} :
    (seq (alt r r') t).attempts first s =
      (seq r t).attempts first s ++ (seq r' t).attempts first s := by
  simp only [attempts, List.flatMap_append]

/-! ### Trimming -/

/-- `^[p]+|[p]+$`: what surrounds a text. -/
def trim (p newline : α → Bool) : Regex α :=
  alt (seq bos (run p 1 none)) (seq (run p 1 none) (eos newline))

section Trim

variable {p newline : α → Bool} (hnewline : ∀ c, newline c = true → p c = true)

include hnewline in
/-- What comes after a text has to reach its end. -/
theorem attempts_trailing_eq_nil (hs : ∃ c ∈ s, p c = false) :
    (seq (run p 1 none) (eos newline)).attempts first s = [] := by
  rw [List.eq_nil_iff_forall_not_mem]
  intro m hm
  obtain ⟨m₁, h₁, m₂, h₂, -⟩ := mem_attempts_seq.1 hm
  obtain ⟨rfl, -, -, -, hp⟩ := mem_attempts_run.1 h₁
  obtain ⟨c, hc, hpc⟩ := hs
  rcases List.mem_append.1 hc with hc | hc
  · rw [hp c hc] at hpc
    cases hpc
  · rw [attempts] at h₂
    split at h₂
    · rename_i hend
      rw [hnewline c (hend.2 c hc)] at hpc
      cases hpc
    · cases h₂

theorem head?_attempts_trailing (hs : s ≠ []) (hp : ∀ c ∈ s, p c = true) :
    ((seq (run p 1 none) (eos newline)).attempts first s).head? = some ⟨s, [], []⟩ := by
  have hrun : ((run p 1 none).attempts first (s ++ [])).head? = some ⟨s, [], []⟩ :=
    head?_attempts_run (List.length_pos_iff.2 hs) (by simp) hp (.inr (by simp))
  have hend : ((eos newline).attempts (first && s.isEmpty) []).head? = some ⟨[], [], []⟩ := by
    simp [attempts]
  rw [List.append_nil] at hrun
  rw [head?_attempts_seq hrun hend, Match.append, List.append_nil, List.append_nil]

theorem attempts_trim_false :
    (trim p newline).attempts false s = (seq (run p 1 none) (eos newline)).attempts false s := by
  simp [trim, attempts]

include hnewline in
/-- Behind the beginning of the text only its end is trimmed. -/
theorem search_trim_false {w : List α} (hs : ∀ hne : s ≠ [], p (s.getLast hne) = false)
    (hw : ∀ c ∈ w, p c = true) :
    (trim p newline).search false (s ++ w) = if w = [] then none else some (s, ⟨w, [], []⟩) := by
  induction s with
  | nil =>
      split
      · rename_i hnil
        subst hnil
        simp [search, trim, attempts, greedy]
      · rename_i hne
        refine search_of_head? ?_ hne
        rw [attempts_trim_false, List.nil_append, head?_attempts_trailing hne hw]
  | cons c s ih =>
      have hlast : p ((c :: s).getLast (by simp)) = false := hs (by simp)
      have hnil : (trim p newline).attempts false (c :: (s ++ w)) = [] := by
        rw [attempts_trim_false]
        refine attempts_trailing_eq_nil hnewline ⟨_, ?_, hlast⟩
        exact List.mem_append_left w (List.getLast_mem (l := c :: s) (by simp))
      have hs' : ∀ hne : s ≠ [], p (s.getLast hne) = false := by
        intro hne
        rwa [List.getLast_cons hne] at hlast
      rw [List.cons_append, search, hnil, List.find?_nil, ih hs']
      by_cases hnil : w = []
      · rw [if_pos hnil, if_pos hnil]
        rfl
      · rw [if_neg hnil, if_neg hnil]
        rfl

include hnewline in
theorem replaceFrom_trim_false {fuel : ℕ} (hfuel : s ≠ [] → 0 < fuel) :
    (trim p newline).replaceFrom [] fuel false s = s.rdropWhile p := by
  cases fuel with
  | zero =>
      obtain rfl : s = [] := by
        by_contra hne
        exact absurd (hfuel hne) (by omega)
      rfl
  | succ fuel =>
      have hlast : ∀ hne : s.rdropWhile p ≠ [], p ((s.rdropWhile p).getLast hne) = false :=
        fun hne => by simpa using List.rdropWhile_last_not p s hne
      have hw : ∀ c ∈ s.rtakeWhile p, p c = true := fun c hc => List.mem_rtakeWhile_imp hc
      have hsearch := search_trim_false hnewline hlast hw
      rw [List.rdropWhile_append_rtakeWhile] at hsearch
      rw [replaceFrom, hsearch]
      by_cases hnil : s.rtakeWhile p = []
      · rw [if_pos hnil]
        have happend := List.rdropWhile_append_rtakeWhile (p := p) (l := s)
        rw [hnil, List.append_nil] at happend
        exact happend.symm
      · rw [if_neg hnil]
        simp only [List.append_nil]
        cases fuel with
        | zero => rw [replaceFrom, List.append_nil]
        | succ fuel => simp [replaceFrom, search, trim, attempts, greedy]

include hnewline in
/-- **What is left after trimming**: the text without the accepted characters around it. -/
theorem replace_trim : (trim p newline).replace [] s = (s.dropWhile p).rdropWhile p := by
  rw [replace]
  cases s with
  | nil => rfl
  | cons c s =>
      cases hc : p c with
      | false =>
          -- nothing to trim at the beginning, where the search then does not depend on the flag
          have hnil : ∀ first, (trim p newline).attempts first (c :: s) = [] := by
            intro first
            rw [trim, attempts, attempts_trailing_eq_nil hnewline ⟨c, by simp, hc⟩, List.append_nil]
            cases first with
            | false => rfl
            | true => simp [attempts, greedy, hc]
          have hsearch : (trim p newline).search true (c :: s) =
              (trim p newline).search false (c :: s) := by
            rw [search, search, hnil, hnil]
          rw [List.dropWhile_cons_of_neg (by simp [hc]), ← replaceFrom_trim_false hnewline
            (fun _ => Nat.succ_pos s.length), List.length_cons, replaceFrom, replaceFrom, hsearch]
      | true =>
          have hhead : ((trim p newline).attempts true (c :: s)).head? =
              some ⟨(c :: s).takeWhile p, [], (c :: s).dropWhile p⟩ := by
            have hbos : (bos.attempts true (c :: s)).head? = some ⟨[], [], c :: s⟩ := rfl
            rw [trim, attempts, List.head?_append,
              head?_attempts_seq hbos (head?_attempts_run_none (by simp [hc]))]
            rfl
          have htext : (c :: s).takeWhile p ≠ [] := by simp [hc]
          rw [List.length_cons, replaceFrom, search_of_head? hhead htext]
          simp only [List.nil_append]
          refine replaceFrom_trim_false hnewline fun hne => List.length_pos_iff.2 ?_
          rintro rfl
          simp [hc] at hne

end Trim

end Regex
