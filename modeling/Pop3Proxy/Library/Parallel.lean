/-
# Two computations side by side

The second of two computations keeps up with the first when it returns wherever the
first one does, with a result that is related to the first one's.
-/
import Mathlib.Tactic.Common

/-- Where `r` returns, `r'` returns something related. -/
def Parallel {ε ε' α β : Type} (R : α → β → Prop) (r : Except ε α) (r' : Except ε' β) : Prop :=
  ∀ a, r = .ok a → ∃ b, r' = .ok b ∧ R a b

namespace Parallel

variable {ε ε' α β γ δ : Type} {R : α → β → Prop} {S : γ → δ → Prop}

/-- Both return. -/
theorem ok {a : α} {b : β} (h : R a b) :
    Parallel R (.ok a : Except ε α) (.ok b : Except ε' β) := by
  intro a' ha'
  obtain rfl := Except.ok.inj ha'
  exact ⟨b, rfl, h⟩

/-- Nothing is asked where the first one fails. -/
theorem error {e : ε} {r' : Except ε' β} : Parallel R (.error e : Except ε α) r' := by
  intro a ha
  cases ha

/-- A weaker relation. -/
theorem mono {R' : α → β → Prop} {r : Except ε α} {r' : Except ε' β} (h : Parallel R r r')
    (hR : ∀ a b, R a b → R' a b) : Parallel R' r r' := by
  intro a ha
  obtain ⟨b, hb, hab⟩ := h a ha
  exact ⟨b, hb, hR a b hab⟩

/-- **The rule for sequences.** -/
theorem bind {r : Except ε α} {r' : Except ε' β} {f : α → Except ε γ} {g : β → Except ε' δ}
    (h : Parallel R r r') (hf : ∀ a b, R a b → Parallel S (f a) (g b)) :
    Parallel S (r >>= f) (r' >>= g) := by
  intro c hc
  cases r with
  | error e => cases hc
  | ok a =>
    obtain ⟨b, rfl, hab⟩ := h a rfl
    exact hf a b hab c hc

/-- Both go on from the same value. -/
theorem same {r : Except ε α} {f : α → Except ε γ} {g : α → Except ε δ}
    (hf : ∀ a, r = .ok a → Parallel S (f a) (g a)) : Parallel S (r >>= f) (r >>= g) := by
  cases r with
  | error e => exact error
  | ok a => exact hf a rfl

/-- Functions that keep to the relation. -/
theorem map {r : Except ε α} {r' : Except ε' β} {f : α → γ} {g : β → δ} (h : Parallel R r r')
    (hf : ∀ a b, R a b → S (f a) (g b)) : Parallel S (r.map f) (r'.map g) := by
  intro c hc
  cases r with
  | error e => cases hc
  | ok a =>
    obtain ⟨b, rfl, hab⟩ := h a rfl
    obtain rfl := Except.ok.inj hc
    exact ⟨g b, rfl, hf a b hab⟩

/-- Whichever way the tests go, when they go the same way. -/
theorem ite {p p' : Prop} [Decidable p] [Decidable p'] {r₁ r₂ : Except ε α}
    {r₁' r₂' : Except ε' β} (hp : p ↔ p') (h₁ : p → Parallel R r₁ r₁')
    (h₂ : ¬ p → Parallel R r₂ r₂') :
    Parallel R (if p then r₁ else r₂) (if p' then r₁' else r₂') := by
  by_cases h : p
  · rw [if_pos h, if_pos (hp.mp h)]
    exact h₁ h
  · rw [if_neg h, if_neg (mt hp.mpr h)]
    exact h₂ h

end Parallel
