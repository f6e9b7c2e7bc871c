/-
# The steps of a run

A run feeds one letter after the other to a state and goes on as long as no step
fails.  Its visits are the letters it gets to, each with the state it is fed to.
When every step changes a balance by its cost, the balance before a step is the
sum of the costs of the steps before it, also when each step is a run of its own.
-/
import Mathlib.Algebra.BigOperators.Group.List.Basic
import Mathlib.Algebra.Order.Ring.Int

section
variable {σ α ε : Type*} {step : σ → α → Except ε σ} {s s' : σ} {a : α} {as bs : List α}

/-- The letters, each with the state it is fed to, up to the first that fails. -/
def visits (step : σ → α → Except ε σ) : σ → List α → List (σ × α)
  | _, [] => []
  | s, a :: as => (s, a) :: match step s a with
    | .ok s' => visits step s' as
    | .error _ => []

@[simp] theorem visits_nil : visits step s [] = [] := rfl

/-- A step that returns is visited, and what follows it. -/
theorem visits_cons_ok (h : step s a = .ok s') :
    visits step s (a :: as) = (s, a) :: visits step s' as := by
  rw [visits, h]

/-- A step that fails is visited last. -/
theorem visits_cons_error {e : ε} (h : step s a = .error e) :
    visits step s (a :: as) = [(s, a)] := by
  rw [visits, h]

/-- A run that returns, and one behind it. -/
theorem visits_append_ok (h : as.foldlM step s = .ok s') :
    visits step s (as ++ bs) = visits step s as ++ visits step s' bs := by
  induction as generalizing s with
  | nil =>
    obtain rfl := Except.ok.inj h
    rfl
  | cons a as ih =>
    rw [List.foldlM_cons] at h
    cases hstep : step s a with
    | error e =>
      rw [hstep] at h
      cases h
    | ok s₁ =>
      rw [hstep] at h
      rw [List.cons_append, visits_cons_ok hstep, visits_cons_ok hstep, ih h, List.cons_append]

/-- Behind a fault nothing is visited. -/
theorem visits_append_error {e : ε} (h : as.foldlM step s = .error e) :
    visits step s (as ++ bs) = visits step s as := by
  induction as generalizing s with
  | nil => cases h
  | cons a as ih =>
    rw [List.foldlM_cons] at h
    cases hstep : step s a with
    | error e' => rw [List.cons_append, visits_cons_error hstep, visits_cons_error hstep]
    | ok s₁ =>
      rw [hstep] at h
      rw [List.cons_append, visits_cons_ok hstep, visits_cons_ok hstep, ih h]

/-- A run fails in one of its steps. -/
theorem exists_visit_error {e : ε} (h : as.foldlM step s = .error e) :
    ∃ v ∈ visits step s as, step v.1 v.2 = .error e := by
  induction as generalizing s with
  | nil => cases h
  | cons a as ih =>
    rw [List.foldlM_cons] at h
    cases hstep : step s a with
    | error e' =>
      rw [hstep] at h
      obtain rfl := Except.error.inj h
      exact ⟨(s, a), by simp [visits_cons_error hstep], hstep⟩
    | ok s₁ =>
      rw [hstep] at h
      obtain ⟨v, hv, hres⟩ := ih h
      exact ⟨v, by simp [visits_cons_ok hstep, hv], hres⟩

/-- What holds of every step of a run that is one letter longer. -/
theorem forall_visits_concat {P : σ × α → Prop} :
    (∀ v ∈ visits step s (as ++ [a]), P v) ↔
      (∀ v ∈ visits step s as, P v) ∧ ∀ s', as.foldlM step s = .ok s' → P (s', a) := by
  cases h : as.foldlM step s with
  | error e =>
    rw [visits_append_error h]
    simp
  | ok s₁ =>
    have hone : visits step s₁ [a] = [(s₁, a)] := by
      cases hstep : step s₁ a with
      | error e => exact visits_cons_error hstep
      | ok s₂ => rw [visits_cons_ok hstep, visits_nil]
    rw [visits_append_ok h, hone]
    simp only [List.mem_append, List.mem_singleton, or_imp, forall_and, forall_eq,
      Except.ok.injEq, forall_eq']

/-- **An invariant along steps of steps.**  What is known of each small step keeps
the invariant and gives what is wanted of it. -/
theorem forall_flatMap {τ : Type*} {V : σ × α → List τ} {I : σ → Prop} {A : α → Prop}
    {Q R : τ → Prop}
    (hstep : ∀ s a, I s → A a → (∀ v ∈ V (s, a), Q v) →
      (∀ v ∈ V (s, a), R v) ∧ ∀ s', step s a = .ok s' → I s')
    (has : ∀ a ∈ as, A a) (hs : I s) (hq : ∀ v ∈ (visits step s as).flatMap V, Q v) :
    (∀ v ∈ (visits step s as).flatMap V, R v) ∧ ∀ s', as.foldlM step s = .ok s' → I s' := by
  induction as generalizing s with
  | nil =>
    refine ⟨by simp, fun s' h => ?_⟩
    obtain rfl := Except.ok.inj h
    exact hs
  | cons a as ih =>
    cases h : step s a with
    | error e =>
      rw [visits_cons_error h, List.flatMap_singleton] at hq ⊢
      refine ⟨(hstep s a hs (has a (by simp)) hq).1, fun s' h' => ?_⟩
      rw [List.foldlM_cons, h] at h'
      cases h'
    | ok s₁ =>
      rw [visits_cons_ok h, List.flatMap_cons, List.forall_mem_append] at hq ⊢
      obtain ⟨hr, hok⟩ := hstep s a hs (has a (by simp)) hq.1
      obtain ⟨hr', hok'⟩ := ih (fun a ha => has a (by simp [ha])) (hok s₁ h) hq.2
      refine ⟨⟨hr, hr'⟩, fun s' h' => ?_⟩
      rw [List.foldlM_cons, h] at h'
      exact hok' s' h'

/-- **An invariant along steps.** -/
theorem forall_visits {I : σ → Prop} {A : α → Prop} {Q R : σ × α → Prop}
    (hstep : ∀ s a, I s → A a → Q (s, a) → R (s, a) ∧ ∀ s', step s a = .ok s' → I s')
    (has : ∀ a ∈ as, A a) (hs : I s) (hq : ∀ v ∈ visits step s as, Q v) :
    (∀ v ∈ visits step s as, R v) ∧ ∀ s', as.foldlM step s = .ok s' → I s' := by
  rw [← List.flatMap_singleton' (visits step s as)] at hq ⊢
  refine forall_flatMap (fun s a hs ha hq => ?_) has hs hq
  simpa using hstep s a hs ha (by simpa using hq)

end

/-! ## With what came before -/

section
variable {σ α ε τ : Type*} {R : List τ → τ → Prop} {us vs ws : List τ}

/-- What is known of each step when `us` and the steps before it are the past. -/
def Along (R : List τ → τ → Prop) (us vs : List τ) : Prop :=
  ∀ ws v xs, vs = ws ++ v :: xs → R (us ++ ws) v

/-- No visits. -/
theorem Along.nil : Along R us [] := fun ws v xs h => by simp at h

/-- Visits behind visits. -/
theorem Along.append (hv : Along R us vs) (hw : Along R (us ++ vs) ws) :
    Along R us (vs ++ ws) := by
  intro ps v xs h
  rcases List.append_eq_append_iff.mp h with ⟨qs, rfl, hws⟩ | ⟨qs, rfl, hxs⟩
  · rw [← List.append_assoc]
    exact hw qs v xs hws
  · cases qs with
    | nil =>
      have h := hw [] v xs (by simpa using hxs.symm)
      simpa using h
    | cons q qs =>
      obtain ⟨rfl, -⟩ := List.cons.inj hxs
      exact hv ps v qs rfl

/-- One visit. -/
theorem Along.single {v : τ} (h : R us v) : Along R us [v] := by
  intro ws w xs hw
  cases ws with
  | nil =>
    obtain ⟨rfl, -⟩ := List.cons.inj hw
    simpa using h
  | cons w ws => simp at hw

/-- **An invariant of state and past**, along steps of steps. -/
theorem along_flatMap {step : σ → α → Except ε σ} {V : σ × α → List τ} {I : List τ → σ → Prop}
    (hstep : ∀ us s a, I us s → Along R us (V (s, a)) ∧
      ∀ s', step s a = .ok s' → I (us ++ V (s, a)) s')
    (as : List α) {s : σ} (hs : I us s) :
    Along R us ((visits step s as).flatMap V) ∧
      ∀ s', as.foldlM step s = .ok s' → I (us ++ (visits step s as).flatMap V) s' := by
  induction as generalizing us s with
  | nil =>
    refine ⟨.nil, fun s' h => ?_⟩
    obtain rfl := Except.ok.inj h
    simpa using hs
  | cons a as ih =>
    obtain ⟨hr, hok⟩ := hstep us s a hs
    cases h : step s a with
    | error e =>
      rw [visits_cons_error h, List.flatMap_singleton]
      refine ⟨hr, fun s' h' => ?_⟩
      rw [List.foldlM_cons, h] at h'
      cases h'
    | ok s₁ =>
      obtain ⟨hr', hok'⟩ := ih (hok s₁ h)
      rw [visits_cons_ok h, List.flatMap_cons, ← List.append_assoc]
      refine ⟨hr.append hr', fun s' h' => ?_⟩
      rw [List.foldlM_cons, h] at h'
      exact hok' s' h'

/-- The same along steps. -/
theorem along_visits {step : σ → α → Except ε σ} {R : List (σ × α) → σ × α → Prop}
    {I : List (σ × α) → σ → Prop} {us : List (σ × α)}
    (hstep : ∀ us s a, I us s → R us (s, a) ∧ ∀ s', step s a = .ok s' → I (us ++ [(s, a)]) s')
    (as : List α) {s : σ} (hs : I us s) :
    Along R us (visits step s as) ∧
      ∀ s', as.foldlM step s = .ok s' → I (us ++ visits step s as) s' := by
  have h := along_flatMap (R := R) (V := fun v => [v])
    (fun us s a hs => ⟨.single (hstep us s a hs).1, (hstep us s a hs).2⟩) as hs
  rwa [List.flatMap_singleton'] at h

end

/-! ## Costs -/

section
variable {σ α ε τ : Type*} {balance cost : τ → ℤ} {b : ℤ} {us vs : List τ}

/-- The balance before each step is what the costs before it leave of `b`. -/
def Tallied (balance cost : τ → ℤ) (b : ℤ) (vs : List τ) : Prop :=
  ∀ us v ws, vs = us ++ v :: ws → balance v = b + (us.map cost).sum

/-- No costs. -/
theorem Tallied.nil : Tallied balance cost b [] := fun us v ws h => by simp at h

/-- Costs behind costs. -/
theorem Tallied.append (hu : Tallied balance cost b us)
    (hv : Tallied balance cost (b + (us.map cost).sum) vs) :
    Tallied balance cost b (us ++ vs) := by
  intro ps v ws h
  rcases List.append_eq_append_iff.mp h with ⟨qs, rfl, hvs⟩ | ⟨qs, rfl, hws⟩
  · rw [hv qs v ws hvs, List.map_append, List.sum_append, Int.add_assoc]
  · cases qs with
    | nil =>
      rw [List.append_nil] at hv
      simpa using hv [] v ws (by simpa using hws.symm)
    | cons q qs =>
      obtain ⟨rfl, -⟩ := List.cons.inj hws
      exact hu ps v qs rfl

/-- One cost. -/
theorem Tallied.single {v : τ} (h : balance v = b) : Tallied balance cost b [v] := by
  intro us w ws hv
  cases us with
  | nil =>
    obtain ⟨rfl, -⟩ := List.cons.inj hv
    simpa using h
  | cons u us => simp at hv

/-- **Steps of steps.**  When every step of a run is tallied, so is the run. -/
theorem tallied_flatMap {step : σ → α → Except ε σ} {V : σ × α → List τ} {I : σ → Prop}
    {A : α → Prop} {total : σ → ℤ}
    (hstep : ∀ s a, I s → A a → Tallied balance cost (total s) (V (s, a)) ∧
      ∀ s', step s a = .ok s' → I s' ∧ total s' = total s + ((V (s, a)).map cost).sum)
    {as : List α} (has : ∀ a ∈ as, A a) {s : σ} (hs : I s) :
    Tallied balance cost (total s) ((visits step s as).flatMap V) ∧
      ∀ s', as.foldlM step s = .ok s' →
        I s' ∧ total s' = total s + (((visits step s as).flatMap V).map cost).sum := by
  induction as generalizing s with
  | nil =>
    refine ⟨.nil, fun s' h => ?_⟩
    obtain rfl := Except.ok.inj h
    exact ⟨hs, by simp⟩
  | cons a as ih =>
    obtain ⟨hbal, hok⟩ := hstep s a hs (has a (by simp))
    cases h : step s a with
    | error e =>
      rw [visits_cons_error h, List.flatMap_singleton]
      refine ⟨hbal, fun s' h' => ?_⟩
      rw [List.foldlM_cons, h] at h'
      cases h'
    | ok s₁ =>
      obtain ⟨hs₁, htotal⟩ := hok s₁ h
      obtain ⟨hbal', hok'⟩ := ih (fun a ha => has a (by simp [ha])) hs₁
      rw [visits_cons_ok h, List.flatMap_cons]
      rw [htotal] at hbal' hok'
      refine ⟨hbal.append hbal', fun s' h' => ?_⟩
      rw [List.foldlM_cons, h] at h'
      obtain ⟨hs', htotal'⟩ := hok' s' h'
      exact ⟨hs', by rw [htotal', List.map_append, List.sum_append, Int.add_assoc]⟩

/-- Steps with a cost of their own. -/
theorem tallied_visits {step : σ → α → Except ε σ} {I : σ → Prop} {A : α → Prop} {total : σ → ℤ}
    {cost : σ × α → ℤ}
    (hstep : ∀ s a s', I s → A a → step s a = .ok s' → I s' ∧ total s' = total s + cost (s, a))
    {as : List α} (has : ∀ a ∈ as, A a) {s : σ} (hs : I s) :
    Tallied (fun v => total v.1) cost (total s) (visits step s as) ∧
      ∀ s', as.foldlM step s = .ok s' →
        I s' ∧ total s' = total s + ((visits step s as).map cost).sum := by
  have h : Tallied (fun v => total v.1) cost (total s) ((visits step s as).flatMap fun v => [v]) ∧
      ∀ s', as.foldlM step s = .ok s' → I s' ∧
        total s' = total s + (((visits step s as).flatMap fun v => [v]).map cost).sum :=
    tallied_flatMap (fun s a hs ha => ⟨.single rfl, fun s' hres => by
      simpa using hstep s a s' hs ha hres⟩) has hs
  rwa [List.flatMap_singleton'] at h

end
