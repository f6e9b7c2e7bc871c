/-
# Event systems

A system that reacts to events: each event either moves it to a new state or
ends the run with a fault.  The environment decides which events may happen in
a state (`allowed`).

`Reach` is the set of states some run leads to, and `invariant` is the induction
over runs, done once.
-/
import Mathlib.Data.List.Induction
import Mathlib.Tactic.Common

namespace EventSystem

variable {σ α ε : Type*}

/-- A system with its initial states, the events its environment can produce,
and its reaction to them. -/
structure System (σ α ε : Type*) where
  init : σ → Prop
  allowed : σ → α → Prop
  step : σ → α → Except ε σ

namespace System

variable (M : System σ α ε)

/-- The same system in an environment that produces fewer events. -/
def restrict (good : σ → α → Prop) : System σ α ε :=
  { M with allowed := fun s a => M.allowed s a ∧ good s a }

/-- The states that runs without a fault lead to. -/
inductive Reach : σ → Prop where
  | init {s : σ} : M.init s → Reach s
  | step {s s' : σ} {a : α} : Reach s → M.allowed s a → M.step s a = .ok s' → Reach s'

variable {M}

/-- **The invariant rule.** -/
theorem invariant {I : σ → Prop} (hinit : ∀ s, M.init s → I s)
    (hstep : ∀ s a s', I s → M.allowed s a → M.step s a = .ok s' → I s')
    {s : σ} (h : M.Reach s) : I s := by
  induction h with
  | init h0 => exact hinit _ h0
  | step _ ha hs ih => exact hstep _ _ _ ih ha hs

/-! ## Runs over a list of events -/

/-- The run over a list of events. -/
def run (M : System σ α ε) : σ → List α → Except ε σ
  | s, [] => .ok s
  | s, a :: as => match M.step s a with
    | .ok s' => run M s' as
    | .error e => .error e

/-- The last state of the run before a fault. -/
def last (M : System σ α ε) : σ → List α → σ
  | s, [] => s
  | s, a :: as => match M.step s a with
    | .ok s' => last M s' as
    | .error _ => s

/-- One event more. -/
theorem run_append (s : σ) (as : List α) (a : α) :
    M.run s (as ++ [a]) = match M.run s as with
      | .ok s' => M.step s' a
      | .error e => .error e := by
  induction as generalizing s with
  | nil =>
    rw [List.nil_append, System.run]
    cases h : M.step s a <;> simp [System.run, h]
  | cons b as ih =>
    rw [List.cons_append, System.run, System.run]
    cases M.step s b with
    | ok s' => exact ih s'
    | error e => rfl

/-- A run without a fault leads to its last state. -/
theorem run_eq_last {s s' : σ} {as : List α} (h : M.run s as = .ok s') : M.last s as = s' := by
  induction as generalizing s with
  | nil =>
    rw [System.run, Except.ok.injEq] at h
    rw [System.last, h]
  | cons a as ih =>
    rw [System.run] at h
    rw [System.last]
    cases hs : M.step s a with
    | ok s₁ =>
      simp only [hs] at h
      exact ih h
    | error e =>
      simp only [hs] at h
      exact absurd h (by simp)

/-- Every event of the run is good in the state it happens in, and none faults. -/
def runsGood (M : System σ α ε) (good : σ → α → Prop) [∀ s a, Decidable (good s a)] :
    σ → List α → Bool
  | _, [] => true
  | s, a :: as => decide (good s a) && match M.step s a with
    | .ok s' => runsGood M good s' as
    | .error _ => false

/-- Where anything may happen, a run leads to states that are reached. -/
theorem Reach.last {s : σ} (h : M.Reach s) (hallowed : ∀ s a, M.allowed s a) (as : List α) :
    M.Reach (M.last s as) := by
  induction as generalizing s with
  | nil => exact h
  | cons a as ih =>
    rw [System.last]
    cases hs : M.step s a with
    | error e => exact h
    | ok s₁ => exact ih (.step h (hallowed s a) hs)

/-- A run that faults does so in a state that is reached. -/
theorem Reach.run_error {s : σ} (h : M.Reach s) (hallowed : ∀ s a, M.allowed s a) {as : List α}
    {e : ε} (hrun : M.run s as = .error e) : ∃ s' a, M.Reach s' ∧ M.step s' a = .error e := by
  induction as generalizing s with
  | nil => simp [System.run] at hrun
  | cons a as ih =>
    rw [System.run] at hrun
    cases hs : M.step s a with
    | error e' =>
      simp only [hs] at hrun
      exact ⟨s, a, h, hs.trans hrun⟩
    | ok s₁ =>
      simp only [hs] at hrun
      exact ih (.step h (hallowed s a) hs) hrun

/-- A run of good events stays within the restricted system. -/
theorem Reach.last_good {good : σ → α → Prop} [∀ s a, Decidable (good s a)] {s : σ}
    (h : (M.restrict good).Reach s) (hallowed : ∀ s a, M.allowed s a) {as : List α}
    (hgood : M.runsGood good s as = true) : (M.restrict good).Reach (M.last s as) := by
  induction as generalizing s with
  | nil => exact h
  | cons a as ih =>
    rw [runsGood, Bool.and_eq_true, decide_eq_true_eq] at hgood
    rw [System.last]
    cases hs : M.step s a with
    | error e =>
      simp only [hs] at hgood
      exact absurd hgood.2 (by simp)
    | ok s₁ =>
      simp only [hs] at hgood
      exact ih (.step h ⟨hallowed s a, hgood.1⟩ hs) hgood.2

/-! ## What is observed along a run -/

variable {ω : Type*}

/-- What the events of a run show, up to a fault. -/
def observe (M : System σ α ε) (shows : σ → α → σ → List ω) : σ → List α → List ω
  | _, [] => []
  | s, a :: as => match M.step s a with
    | .ok s' => shows s a s' ++ observe M shows s' as
    | .error _ => []

/-- What it shows. -/
theorem observe_append {shows : σ → α → σ → List ω} {s s' s'' : σ} {as : List α} {a : α}
    (hrun : M.run s as = .ok s') (hstep : M.step s' a = .ok s'') :
    M.observe shows s (as ++ [a]) = M.observe shows s as ++ shows s' a s'' := by
  induction as generalizing s with
  | nil =>
    rw [System.run, Except.ok.injEq] at hrun
    subst hrun
    simp [observe, hstep]
  | cons b as ih =>
    rw [System.run] at hrun
    rw [List.cons_append, observe, observe]
    cases hb : M.step s b with
    | error e =>
      simp only [hb] at hrun
      exact absurd hrun (by simp)
    | ok s₁ =>
      simp only [hb] at hrun ⊢
      rw [ih hrun, List.append_assoc]

/-- **The history rule**: what each event keeps, of the state and of what was
observed before it, holds at the end of every run. -/
theorem history {shows : σ → α → σ → List ω} {I : σ → List ω → Prop}
    (hstep : ∀ s t a s', I s t → M.step s a = .ok s' → I s' (t ++ shows s a s'))
    {s : σ} (h : I s []) (as : List α) : I (M.last s as) (M.observe shows s as) := by
  have hgen : ∀ s t, I s t → I (M.last s as) (t ++ M.observe shows s as) := by
    induction as with
    | nil =>
      intro s t ht
      rw [observe, List.append_nil]
      exact ht
    | cons a as ih =>
      intro s t ht
      rw [System.last, observe]
      cases hs : M.step s a with
      | error e =>
        rw [List.append_nil]
        exact ht
      | ok s' =>
        rw [← List.append_assoc]
        exact ih s' _ (hstep s t a s' ht hs)
  exact hgen s [] h

/-- **The exact condition**: if a good event keeps the invariant and any other
event ends the property, the property holds all along a run exactly when the
events of the run are good. -/
theorem along_iff {shows : σ → α → σ → List ω} {I P : σ → List ω → Prop}
    {good : σ → List ω → α → Prop} (hholds : ∀ s t, I s t → P s t)
    (hgood : ∀ s t a s', I s t → good s t a → M.step s a = .ok s' → I s' (t ++ shows s a s'))
    (hbad : ∀ s t a s', I s t → ¬ good s t a → M.step s a = .ok s' →
      ¬ P s' (t ++ shows s a s'))
    {s : σ} (h : I s []) (as : List α) :
    (∀ bs s', bs <+: as → M.run s bs = .ok s' → P s' (M.observe shows s bs)) ↔
      ∀ bs b s' s'', bs ++ [b] <+: as → M.run s bs = .ok s' → M.step s' b = .ok s'' →
        good s' (M.observe shows s bs) b := by
  induction as using List.reverseRecOn with
  | nil =>
    constructor
    · intro _ bs b _ _ hpre
      exact absurd (List.prefix_nil.mp hpre) (by simp)
    · intro _ bs s' hpre hrun
      obtain rfl := List.prefix_nil.mp hpre
      rw [System.run, Except.ok.injEq] at hrun
      subst hrun
      exact hholds _ _ h
  | append_singleton as a ih =>
    -- good events keep the invariant up to the last one
    have hinv : (∀ bs b s' s'', bs ++ [b] <+: as → M.run s bs = .ok s' → M.step s' b = .ok s'' →
        good s' (M.observe shows s bs) b) → ∀ bs s', bs <+: as → M.run s bs = .ok s' →
          I s' (M.observe shows s bs) := by
      intro hall bs
      induction bs using List.reverseRecOn with
      | nil =>
        intro s' _ hrun
        rw [System.run, Except.ok.injEq] at hrun
        subst hrun
        exact h
      | append_singleton bs b ihb =>
        intro s'' hpre hrun
        rw [run_append] at hrun
        cases hb : M.run s bs with
        | error e =>
          simp only [hb] at hrun
          exact absurd hrun (by simp)
        | ok s' =>
          simp only [hb] at hrun
          rw [observe_append hb hrun]
          have hpre' : bs <+: as := (List.prefix_append bs [b]).trans hpre
          exact hgood _ _ _ _ (ihb s' hpre' hb) (hall bs b s' s'' hpre hb hrun) hrun
    constructor
    · intro hP bs b s' s'' hpre hrun hstep
      have hall := ih.mp fun bs s' hbs => hP bs s' (hbs.trans (List.prefix_append as [a]))
      rcases List.prefix_concat_iff.mp hpre with heq | hpre
      · obtain ⟨rfl, hb⟩ := List.append_inj' heq rfl
        by_contra hnot
        refine hbad _ _ _ _ (hinv hall bs s' (List.prefix_refl bs) hrun) hnot hstep ?_
        rw [← observe_append hrun hstep]
        refine hP _ _ hpre ?_
        rw [run_append, hrun]
        exact hstep
      · exact hall bs b s' s'' hpre hrun hstep
    · intro hall bs s' hpre hrun
      have hall' := fun bs b s' s'' (hbs : bs ++ [b] <+: as) =>
        hall bs b s' s'' (hbs.trans (List.prefix_append as [a]))
      rcases List.prefix_concat_iff.mp hpre with rfl | hpre
      · rw [run_append] at hrun
        cases hb : M.run s as with
        | error e =>
          simp only [hb] at hrun
          exact absurd hrun (by simp)
        | ok s₁ =>
          simp only [hb] at hrun
          rw [observe_append hb hrun]
          exact hholds _ _ (hgood _ _ _ _ (hinv hall' as s₁ (List.prefix_refl as) hb)
            (hall as a s₁ s' (List.prefix_refl _) hb hrun) hrun)
      · exact hholds _ _ (hinv hall' bs s' hpre hrun)

/-! ## Runs of a bounded number of events -/

/-- What events cost together. -/
def total (cost : α → ℕ) : List α → ℕ
  | [] => 0
  | a :: as => cost a + total cost as

/-- **The counting rule**: events cost something, and what is known after a certain cost holds at
the end of every run that stays within the budget. -/
theorem counted {shows : σ → α → σ → List ω} {cost : α → ℕ} {budget : ℕ}
    {J : ℕ → σ → List ω → Prop}
    (hstep : ∀ k s t a s', J k s t → k + cost a ≤ budget → M.step s a = .ok s' →
      J (k + cost a) s' (t ++ shows s a s'))
    {k : ℕ} {s s' : σ} {t : List ω} {as : List α} (h : J k s t) (hrun : M.run s as = .ok s')
    (hcost : k + total cost as ≤ budget) :
    J (k + total cost as) s' (t ++ M.observe shows s as) := by
  induction as generalizing k s t with
  | nil =>
    rw [System.run, Except.ok.injEq] at hrun
    subst hrun
    simpa [observe, total] using h
  | cons a as ih =>
    rw [System.run] at hrun
    rw [total] at hcost ⊢
    rw [observe]
    cases hs : M.step s a with
    | error e =>
      simp only [hs] at hrun
      exact absurd hrun (by simp)
    | ok s₁ =>
      simp only [hs] at hrun ⊢
      have hnext := ih (hstep k s t a s₁ h (by omega) hs) hrun (by omega)
      rw [List.append_assoc] at hnext
      rwa [← Nat.add_assoc]

end System

end EventSystem
