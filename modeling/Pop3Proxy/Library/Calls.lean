/-
# Calls of a module

A module answers calls, each of which may change its state or fail.  Where for each call one module
answers what another does, or fails as it does, or for a reason that excuses it, it does so for any
sequence of calls.
-/
import Mathlib.Tactic.Common

namespace Calls

variable {σ τ ι α ε : Type}

/-- Calls one after the other. -/
def run (step : σ → ι → Except ε (α × σ)) : List ι → σ → Except ε (List α × σ)
  | [], s => .ok ([], s)
  | i :: is, s => do
    let (a, s) ← step s i
    let (as, s) ← run step is s
    .ok (a :: as, s)

/-- An outcome follows another: it is a fault that is excused, or the same fault, or the same answer
with states that are related. -/
def Follows (excused : ε → Prop) (R : σ → τ → Prop) (x : Except ε (α × σ))
    (y : Except ε (α × τ)) : Prop :=
  (∃ e, x = .error e ∧ excused e) ∨ (∃ e, x = .error e ∧ y = .error e) ∨
    ∃ a s t, x = .ok (a, s) ∧ y = .ok (a, t) ∧ R s t

section
variable {step : σ → ι → Except ε (α × σ)} {i : ι} {is : List ι} {s s' : σ} {a : α} {e : ε}

/-- The first call faults. -/
theorem run_error (h : step s i = .error e) : run step (i :: is) s = .error e := by
  rw [run, h]
  rfl

/-- The first call returns, and the others follow. -/
theorem run_ok (h : step s i = .ok (a, s')) :
    run step (i :: is) s = (run step is s').map fun out => (a :: out.1, out.2) := by
  rw [run, h]
  show (run step is s' >>= _) = _
  cases run step is s' <;> rfl

end

section
variable {excused : ε → Prop} {R : σ → τ → Prop} {x : Except ε (α × σ)} {y : Except ε (α × τ)}

/-- Something is done with the answer on both sides. -/
theorem Follows.map {β : Type} (h : Follows excused R x y) (f : α → β) :
    Follows excused R (x.map fun out => (f out.1, out.2)) (y.map fun out => (f out.1, out.2)) := by
  rcases h with ⟨e, rfl, he⟩ | ⟨e, rfl, rfl⟩ | ⟨a, s, t, rfl, rfl, hst⟩
  · exact .inl ⟨e, rfl, he⟩
  · exact .inr (.inl ⟨e, rfl, rfl⟩)
  · exact .inr (.inr ⟨f a, s, t, rfl, rfl, hst⟩)

end

/-- **A run follows another** where each call does.  What relates the states may depend on the calls
that are still to come. -/
theorem Follows.run {excused : ε → Prop} {R : List ι → σ → τ → Prop}
    {step : σ → ι → Except ε (α × σ)} {meaning : τ → ι → Except ε (α × τ)}
    (hstep : ∀ i is s t, R (i :: is) s t → Follows excused (R is) (step s i) (meaning t i))
    {is : List ι} {s : σ} {t : τ} (h : R is s t) :
    Follows excused (R []) (run step is s) (run meaning is t) := by
  induction is generalizing s t with
  | nil => exact .inr (.inr ⟨[], s, t, rfl, rfl, h⟩)
  | cons i is ih =>
    rcases hstep i is s t h with ⟨e, hs, he⟩ | ⟨e, hs, ht⟩ | ⟨a, s', t', hs, ht, hrest⟩
    · exact .inl ⟨e, run_error hs, he⟩
    · exact .inr (.inl ⟨e, run_error hs, run_error ht⟩)
    · rw [run_ok hs, run_ok ht]
      exact (ih hrest).map (a :: ·)

end Calls
