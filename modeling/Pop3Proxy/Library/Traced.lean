/-
# Computations that leave a trace

A computation notes events on its way and ends with a value or an error.  What
is asked of every event of a sequence of computations is asked of each in turn,
of the later ones only where the earlier ones end with a value.
-/
import Mathlib.Data.List.Basic
import Mathlib.Tactic.Common

/-- The events on the way, and how the computation ends. -/
structure Traced (τ ε α : Type) where
  trace : List τ
  result : Except ε α

namespace Traced

variable {τ ε α β : Type}

instance : Monad (Traced τ ε) where
  pure a := ⟨[], .ok a⟩
  bind x f := match x.result with
    | .ok a => ⟨x.trace ++ (f a).trace, (f a).result⟩
    | .error e => ⟨x.trace, .error e⟩

/-- Note an event. -/
def note (t : τ) : Traced τ ε Unit := ⟨[t], .ok ()⟩

/-- Note several events. -/
def notes (ts : List τ) : Traced τ ε Unit := ⟨ts, .ok ()⟩

/-- End with an error. -/
def fail (e : ε) : Traced τ ε α := ⟨[], .error e⟩

@[ext] theorem ext {x y : Traced τ ε α} (ht : x.trace = y.trace) (hr : x.result = y.result) :
    x = y := by
  cases x
  cases y
  simp_all

/-- The same events and errors, under other names. -/
def relabel {τ' ε' : Type} (f : τ → τ') (g : ε → ε') (x : Traced τ ε α) : Traced τ' ε' α :=
  ⟨x.trace.map f, x.result.mapError g⟩

/-! ## Results -/

section
variable {x : Traced τ ε α} {f : α → Traced τ ε β} {a : α} {b : β} {e : ε} {t : τ}

@[simp] theorem result_pure : (pure a : Traced τ ε α).result = .ok a := rfl
@[simp] theorem result_note : (note t : Traced τ ε Unit).result = .ok () := rfl
@[simp] theorem result_notes {ts : List τ} : (notes ts : Traced τ ε Unit).result = .ok () := rfl
@[simp] theorem result_fail : (fail e : Traced τ ε α).result = .error e := rfl
@[simp] theorem trace_pure : (pure a : Traced τ ε α).trace = [] := rfl
@[simp] theorem trace_note : (note t : Traced τ ε Unit).trace = [t] := rfl
@[simp] theorem trace_notes {ts : List τ} : (notes ts : Traced τ ε Unit).trace = ts := rfl
@[simp] theorem trace_fail : (fail e : Traced τ ε α).trace = [] := rfl

/-- A step that returns is followed by the next. -/
theorem bind_of_ok (h : x.result = .ok a) :
    x >>= f = ⟨x.trace ++ (f a).trace, (f a).result⟩ := by
  show (match x.result with
    | .ok a => (⟨x.trace ++ (f a).trace, (f a).result⟩ : Traced τ ε β)
    | .error e => ⟨x.trace, .error e⟩) = _
  rw [h]

/-- A step that fails is the last. -/
theorem bind_of_error (h : x.result = .error e) : x >>= f = ⟨x.trace, .error e⟩ := by
  show (match x.result with
    | .ok a => (⟨x.trace ++ (f a).trace, (f a).result⟩ : Traced τ ε β)
    | .error e => ⟨x.trace, .error e⟩) = _
  rw [h]

@[simp] theorem mk_ok_bind (l : List τ) :
    (⟨l, .ok a⟩ : Traced τ ε α) >>= f = ⟨l ++ (f a).trace, (f a).result⟩ := rfl

@[simp] theorem note_bind {f : Unit → Traced τ ε β} :
    note t >>= f = ⟨t :: (f ()).trace, (f ()).result⟩ := rfl

@[simp] theorem notes_bind {f : Unit → Traced τ ε β} (l : List τ) :
    notes l >>= f = ⟨l ++ (f ()).trace, (f ()).result⟩ := rfl

@[simp] theorem mk_ok_map {f : α → β} (l : List τ) :
    f <$> (⟨l, .ok a⟩ : Traced τ ε α) = ⟨l, .ok (f a)⟩ :=
  Traced.ext (List.append_nil l) rfl

/-- The events before those of a later computation stay. -/
theorem mem_trace_bind : t ∈ (x >>= f).trace ↔
    t ∈ x.trace ∨ ∃ a, x.result = .ok a ∧ t ∈ (f a).trace := by
  cases h : x.result with
  | error e => simp [bind_of_error h]
  | ok a => simp [bind_of_ok h]

end

theorem id_map (x : Traced τ ε α) : id <$> x = x := by
  cases h : x.result with
  | error e => exact (bind_of_error h).trans (Traced.ext rfl h.symm)
  | ok a => exact (bind_of_ok h).trans (Traced.ext (List.append_nil _) h.symm)

theorem bind_assoc {γ : Type} (x : Traced τ ε α) (f : α → Traced τ ε β) (g : β → Traced τ ε γ) :
    x >>= f >>= g = x >>= fun a => f a >>= g := by
  cases h : x.result with
  | error e =>
    rw [bind_of_error h, bind_of_error h]
    exact bind_of_error rfl
  | ok a =>
    rw [bind_of_ok h, bind_of_ok h]
    cases hf : (f a).result with
    | error e => rw [bind_of_error rfl, bind_of_error hf]
    | ok b => rw [bind_of_ok rfl, bind_of_ok hf, List.append_assoc]

instance : LawfulMonad (Traced τ ε) :=
  LawfulMonad.mk' (Traced τ ε) id_map (fun _ _ => rfl) bind_assoc

/-! ## What holds of every event -/

/-- Every event on the way is one of `P`. -/
def All (P : τ → Prop) (x : Traced τ ε α) : Prop := ∀ t ∈ x.trace, P t

section
variable {P : τ → Prop} {x : Traced τ ε α} {f : α → Traced τ ε β} {a : α} {e : ε} {t : τ}

@[simp] theorem all_pure : (pure a : Traced τ ε α).All P := by simp [All]
@[simp] theorem all_note : (note t : Traced τ ε Unit).All P ↔ P t := by simp [All]
@[simp] theorem all_notes {ts : List τ} : (notes ts : Traced τ ε Unit).All P ↔ ∀ t ∈ ts, P t :=
  Iff.rfl
@[simp] theorem all_fail : (fail e : Traced τ ε α).All P := by simp [All]

/-- Every entry of the trace is in one of the steps. -/
theorem all_bind : (x >>= f).All P ↔ x.All P ∧ ∀ a, x.result = .ok a → (f a).All P := by
  cases h : x.result with
  | error e => simp [All, bind_of_error h]
  | ok a => simp [All, bind_of_ok h, or_imp, forall_and]

/-- Events under another name are what they are. -/
theorem all_relabel {τ' ε' : Type} {Q : τ' → Prop} {f : τ → τ'} {g : ε → ε'} :
    (x.relabel f g).All Q ↔ x.All fun t => Q (f t) := by simp [All, relabel]

end

/-! ## What comes before what -/

/-- Before every `b` of the list there is an `a`. -/
def Precedes (a b : τ) (l : List τ) : Prop := ∀ us vs, l = us ++ b :: vs → a ∈ us

section
variable {a b : τ} {l l' : List τ}

/-- What does not happen has nothing before it. -/
theorem precedes_of_notMem (hb : b ∉ l) : Precedes a b l := by
  rintro us vs rfl
  exact absurd (List.mem_append_right us List.mem_cons_self) hb

/-- It is enough that an `a` comes before any `b` may. -/
theorem precedes_append (ha : a ∈ l) (hb : b ∉ l) : Precedes a b (l ++ l') := by
  intro us vs heq
  rcases List.append_eq_append_iff.mp heq with ⟨ws, rfl, -⟩ | ⟨ws, rfl, hws⟩
  · exact List.mem_append_left ws ha
  · cases ws with
    | nil => simpa using ha
    | cons w ws =>
      obtain ⟨rfl, -⟩ := List.cons.inj hws
      exact absurd (List.mem_append_right us List.mem_cons_self) hb

end

end Traced
