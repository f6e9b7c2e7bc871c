/-
# Scanning a stream until a verdict

A scanner reads letters one at a time, keeps a state, and may stop with a
verdict.  This is the shape of every `while(count > 0)` loop over a chunk of
received bytes: the state survives the chunk, the verdict ends the loop, and
the number of letters consumed tells where the next loop has to start.

The two facts used everywhere are `scan_append` (cutting the stream anywhere
and scanning the pieces in turn gives the same verdict at the same letter) and
`scan_invariant`.
-/
import Mathlib.Data.List.Basic
import Mathlib.Tactic.Common

namespace Scan

variable {S A R : Type*}

/-- The outcome of one loop over a chunk: the state left behind, the verdict if
the loop stopped early, and the number of letters consumed. -/
structure Outcome (S R : Type*) where
  state : S
  verdict : Option R
  read : ℕ
  deriving DecidableEq

/-- Read letters with `step` until it returns a verdict. -/
def scan (step : S → A → S × Option R) : S → List A → Outcome S R
  | s, [] => ⟨s, none, 0⟩
  | s, a :: as =>
    match step s a with
    | (s', some r) => ⟨s', some r, 1⟩
    | (s', none) => { scan step s' as with read := (scan step s' as).read + 1 }

variable (step : S → A → S × Option R)

@[simp] theorem scan_nil (s : S) : scan step s [] = ⟨s, none, 0⟩ := rfl

/-- A step with a verdict ends the scan on its letter. -/
theorem scan_cons_some {s s' : S} {a : A} {r : R} (as : List A)
    (h : step s a = (s', some r)) :
    scan step s (a :: as) = ⟨s', some r, 1⟩ := by
  simp only [scan, h]

/-- A step without a verdict hands over to the rest of the word. -/
theorem scan_cons_none {s s' : S} {a : A} (as : List A) (h : step s a = (s', none)) :
    scan step s (a :: as) =
      ⟨(scan step s' as).state, (scan step s' as).verdict, (scan step s' as).read + 1⟩ := by
  simp only [scan, h]

/-- A scan never consumes more letters than there are. -/
theorem scan_read_le (s : S) (as : List A) : (scan step s as).read ≤ as.length := by
  induction as generalizing s with
  | nil => simp
  | cons a as ih =>
    rcases hs : step s a with ⟨s', r⟩
    cases r with
    | some r => simp [scan_cons_some step as hs]
    | none => simpa [scan_cons_none step as hs] using ih s'

/-- A scan that gives no verdict has consumed everything. -/
theorem scan_read_of_none {s : S} {as : List A} (h : (scan step s as).verdict = none) :
    (scan step s as).read = as.length := by
  induction as generalizing s with
  | nil => rfl
  | cons a as ih =>
    rcases hs : step s a with ⟨s', r⟩
    cases r with
    | some r => simp [scan_cons_some step as hs] at h
    | none =>
      rw [scan_cons_none step as hs] at h ⊢
      simpa using ih h

/-- A scan that gives a verdict has consumed at least one letter. -/
theorem scan_read_pos {s : S} {as : List A} {r : R} (h : (scan step s as).verdict = some r) :
    0 < (scan step s as).read := by
  cases as with
  | nil => simp at h
  | cons a as =>
    rcases hs : step s a with ⟨s', r'⟩
    cases r' with
    | some r' => simp [scan_cons_some step as hs]
    | none => simp [scan_cons_none step as hs]

/-- **Cutting the stream, verdict in the first piece.** -/
theorem scan_append_of_some {s : S} {as : List A} {r : R} (bs : List A)
    (h : (scan step s as).verdict = some r) :
    scan step s (as ++ bs) = scan step s as := by
  induction as generalizing s with
  | nil => simp at h
  | cons a as ih =>
    rcases hs : step s a with ⟨s', r'⟩
    cases r' with
    | some r' => rw [List.cons_append, scan_cons_some step _ hs, scan_cons_some step _ hs]
    | none =>
      rw [scan_cons_none step _ hs] at h
      rw [List.cons_append, scan_cons_none step _ hs, scan_cons_none step _ hs, ih h]

/-- **Cutting the stream, no verdict in the first piece**: the scan goes on
from the state the first piece left behind. -/
theorem scan_append_of_none {s : S} {as : List A} (bs : List A)
    (h : (scan step s as).verdict = none) :
    scan step s (as ++ bs) =
      ⟨(scan step (scan step s as).state bs).state,
        (scan step (scan step s as).state bs).verdict,
        as.length + (scan step (scan step s as).state bs).read⟩ := by
  induction as generalizing s with
  | nil => simp
  | cons a as ih =>
    rcases hs : step s a with ⟨s', r'⟩
    cases r' with
    | some r' => simp [scan_cons_some step _ hs] at h
    | none =>
      rw [scan_cons_none step _ hs] at h
      rw [List.cons_append, scan_cons_none step _ hs, scan_cons_none step _ hs, ih h]
      simp only [List.length_cons, Outcome.mk.injEq, true_and]
      omega

/-- No proper prefix of the consumed letters has a verdict. -/
theorem scan_take_verdict_none {s : S} {as : List A} {k : ℕ} (h : k < (scan step s as).read) :
    (scan step s (as.take k)).verdict = none := by
  induction as generalizing s k with
  | nil => simp at h
  | cons a as ih =>
    cases k with
    | zero => simp
    | succ k =>
      rcases hs : step s a with ⟨s', r⟩
      cases r with
      | some r =>
        rw [scan_cons_some step _ hs] at h
        simp at h
      | none =>
        rw [scan_cons_none step _ hs] at h
        rw [List.take_succ_cons, scan_cons_none step _ hs]
        exact ih (by simpa using h)

/-- A property kept by every step holds of the state a scan leaves behind. -/
theorem scan_invariant {P : S → Prop} (hstep : ∀ s a, P s → P (step s a).1)
    {s : S} (hs : P s) (as : List A) : P (scan step s as).state := by
  induction as generalizing s with
  | nil => exact hs
  | cons a as ih =>
    have hP := hstep s a hs
    rcases hstep' : step s a with ⟨s', r⟩
    rw [hstep'] at hP
    cases r with
    | some r => simpa [scan_cons_some step _ hstep'] using hP
    | none => simpa [scan_cons_none step _ hstep'] using ih hP

/-- A verdict comes from a step out of a state that has the property every step keeps. -/
theorem scan_verdict {P : S → Prop} (hstep : ∀ s a, P s → P (step s a).1) {s : S} (hs : P s)
    {as : List A} {r : R} (h : (scan step s as).verdict = some r) :
    ∃ s' a, P s' ∧ step s' a = ((scan step s as).state, some r) := by
  induction as generalizing s with
  | nil => simp at h
  | cons a as ih =>
    have hP := hstep s a hs
    rcases hs' : step s a with ⟨s₁, r₁⟩
    rw [hs'] at hP
    cases r₁ with
    | some r₁ =>
      rw [scan_cons_some step as hs'] at h ⊢
      exact ⟨s, a, hs, hs'.trans (congrArg (Prod.mk s₁) h)⟩
    | none =>
      rw [scan_cons_none step as hs'] at h ⊢
      exact ih hP h

/-- **Simulation**: scanners that agree on the verdict of every letter, as long as
there is none, agree on the verdict of a word. -/
theorem scan_sim {S' R' : Type*} {step' : S' → A → S' × Option R'} {g : R → R'}
    (Rel : S → S' → Prop)
    (h : ∀ s s' a, Rel s s' → (step' s' a).2 = (step s a).2.map g ∧
      ((step s a).2 = none → Rel (step s a).1 (step' s' a).1))
    {s : S} {s' : S'} (hs : Rel s s') (as : List A) :
    (scan step' s' as).verdict = (scan step s as).verdict.map g ∧
      (scan step' s' as).read = (scan step s as).read := by
  induction as generalizing s s' with
  | nil => exact ⟨rfl, rfl⟩
  | cons a as ih =>
    obtain ⟨hverdict, hnext⟩ := h s s' a hs
    rcases hstep : step s a with ⟨s₁, r⟩
    rcases hstep' : step' s' a with ⟨s₁', r'⟩
    rw [hstep, hstep'] at hverdict hnext
    obtain rfl : r' = r.map g := hverdict
    cases r with
    | some r =>
      rw [scan_cons_some step as hstep, scan_cons_some step' as hstep']
      exact ⟨rfl, rfl⟩
    | none =>
      rw [scan_cons_none step as hstep, scan_cons_none step' as hstep']
      obtain ⟨hv, hr⟩ := ih (hnext rfl)
      exact ⟨hv, congrArg (· + 1) hr⟩

/-! ## Chunks -/

/-- One loop over each chunk in turn, up to the first verdict; the counts add up. -/
def scanChunks (step : S → A → S × Option R) : S → List (List A) → Outcome S R
  | s, [] => ⟨s, none, 0⟩
  | s, c :: cs =>
    match (scan step s c).verdict with
    | some _ => scan step s c
    | none =>
      { scanChunks step (scan step s c).state cs with
        read := (scan step s c).read + (scanChunks step (scan step s c).state cs).read }

/-- What the loop over each chunk gives, up to the first verdict. -/
def verdicts (step : S → A → S × Option R) : S → List (List A) → List (Option R)
  | _, [] => []
  | s, c :: cs =>
    match (scan step s c).verdict with
    | some r => [some r]
    | none => none :: verdicts step (scan step s c).state cs

/-- The number of the chunk that holds letter number `n` of the stream; the chunks
are counted from 0, the letters from 1. -/
def chunkOf : List (List A) → ℕ → ℕ
  | [], _ => 0
  | c :: cs, n => if n ≤ c.length then 0 else chunkOf cs (n - c.length) + 1

/-- **The cuts do not matter**: chunk by chunk comes to the same as all at once. -/
theorem scanChunks_eq (s : S) (cs : List (List A)) :
    scanChunks step s cs = scan step s cs.flatten := by
  induction cs generalizing s with
  | nil => rfl
  | cons c cs ih =>
    rw [scanChunks, List.flatten_cons]
    cases h : (scan step s c).verdict with
    | some r =>
      rw [scan_append_of_some step _ h]
    | none =>
      rw [scan_append_of_none step _ h, ih, scan_read_of_none step h]

/-- The verdict comes with the chunk that holds the last letter read. -/
theorem verdicts_eq (s : S) (cs : List (List A)) :
    verdicts step s cs = match (scan step s cs.flatten).verdict with
      | some r => List.replicate (chunkOf cs (scan step s cs.flatten).read) none ++ [some r]
      | none => List.replicate cs.length none := by
  induction cs generalizing s with
  | nil => rfl
  | cons c cs ih =>
    rw [verdicts, List.flatten_cons]
    cases h : (scan step s c).verdict with
    | some r =>
      rw [scan_append_of_some step _ h, h]
      simp [chunkOf, scan_read_le step s c]
    | none =>
      rw [scan_append_of_none step _ h, ih]
      cases hr : (scan step (scan step s c).state cs.flatten).verdict with
      | none => rfl
      | some r =>
        -- at least one letter behind the chunk has been read
        have hpos := scan_read_pos step hr
        simp only [chunkOf]
        rw [if_neg (by omega), Nat.add_sub_cancel_left, List.replicate_succ]
        rfl

end Scan
