/-
# Words that have parted

Two words have parted when they differ at a place both have.  Whatever is
appended to them afterwards, they stay different.
-/
import Mathlib.Data.List.Basic
import Mathlib.Tactic.Common

variable {α : Type*} {xs ys zs : List α} {a b : α}

/-- The words differ at a place both have. -/
def Parted (xs ys : List α) : Prop :=
  ∃ p a b xs' ys', a ≠ b ∧ xs = p ++ a :: xs' ∧ ys = p ++ b :: ys'

namespace Parted

/-- Lists that have parted are not the same. -/
theorem ne (h : Parted xs ys) : xs ≠ ys := by
  obtain ⟨p, a, b, xs', ys', hab, rfl, rfl⟩ := h
  intro heq
  rw [List.append_right_inj, List.cons.injEq] at heq
  exact hab heq.1

/-- They stay parted, whatever comes behind them. -/
theorem append (h : Parted xs ys) (us vs : List α) : Parted (xs ++ us) (ys ++ vs) := by
  obtain ⟨p, a, b, xs', ys', hab, rfl, rfl⟩ := h
  exact ⟨p, a, b, xs' ++ us, ys' ++ vs, hab, by simp, by simp⟩

/-- Behind a common part. -/
theorem prepend (h : Parted xs ys) (ps : List α) : Parted (ps ++ xs) (ps ++ ys) := by
  obtain ⟨p, a, b, xs', ys', hab, rfl, rfl⟩ := h
  exact ⟨ps ++ p, a, b, xs', ys', hab, by simp, by simp⟩

/-- They part at the first letter that differs. -/
theorem of_cons (hab : a ≠ b) (xs ys : List α) : Parted (a :: xs) (b :: ys) :=
  ⟨[], a, b, xs, ys, hab, rfl, rfl⟩

/-- The words part right behind their common part. -/
theorem after (p : List α) (hab : a ≠ b) (xs ys : List α) : Parted (p ++ a :: xs) (p ++ b :: ys) :=
  (of_cons hab xs ys).prepend p

end Parted
