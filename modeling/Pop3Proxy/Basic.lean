/-
# Bytes and faults

The vocabulary every module shares: octets, C strings, and the ways a run of
the program can end without returning.
-/
import Mathlib.Data.List.Basic

namespace Pop3Proxy

/-- An octet of a socket, a pipe or a buffer. -/
abbrev Byte := UInt8

/-- `'\r'` -/
abbrev CR : Byte := 13
/-- `'\n'` -/
abbrev LF : Byte := 10
/-- `' '` -/
abbrev SP : Byte := 32
/-- `'\t'` -/
abbrev TAB : Byte := 9
/-- `'.'` -/
abbrev DOT : Byte := 46
/-- `'-'` -/
abbrev DASH : Byte := 45

/-- The two octets that end a line. -/
abbrev CRLF : List Byte := [CR, LF]

@[simp] theorem cr_ne_lf : CR ≠ LF := by decide
@[simp] theorem lf_ne_cr : LF ≠ CR := by decide
@[simp] theorem cr_ne_sp : CR ≠ SP := by decide
@[simp] theorem lf_ne_sp : LF ≠ SP := by decide
@[simp] theorem cr_ne_dot : CR ≠ DOT := by decide
@[simp] theorem lf_ne_dot : LF ≠ DOT := by decide
@[simp] theorem dot_ne_cr : DOT ≠ CR := by decide
@[simp] theorem dot_ne_lf : DOT ≠ LF := by decide

/-- The octets of an ASCII string literal of the source. -/
def ascii (s : String) : List Byte := s.toList.map fun c => c.toNat.toUInt8

/-- What a C string function sees of an array: the octets before the first NUL. -/
def cstr (bs : List Byte) : List Byte := bs.takeWhile (· ≠ 0)

/-- Octets other than NUL are all seen. -/
theorem cstr_append {bs : List Byte} (h : 0 ∉ bs) (cs : List Byte) :
    cstr (bs ++ cs) = bs ++ cstr cs :=
  List.takeWhile_append_of_pos fun _ hb => decide_eq_true fun hz => h (hz ▸ hb)

theorem cstr_of_free {bs : List Byte} (h : 0 ∉ bs) : cstr bs = bs := by
  have hnil := cstr_append h []
  rwa [List.append_nil, show cstr [] = [] from rfl, List.append_nil] at hnil

theorem not_mem_cstr (bs : List Byte) : 0 ∉ cstr bs := by
  intro h
  have hne := List.all_eq_true.mp List.all_takeWhile 0 h
  simp at hne

/-- Octets are assigned from the start of an array on. -/
def overwrite (memory bs : List Byte) : List Byte := bs ++ memory.drop bs.length

/-- Octets `s` are assigned from the index `p` on. -/
def splice (bs : List Byte) (p : ℕ) (s : List Byte) : List Byte :=
  bs.take p ++ s ++ bs.drop (p + s.length)

@[simp] theorem length_splice {bs s : List Byte} {p : ℕ} (h : p + s.length ≤ bs.length) :
    (splice bs p s).length = bs.length := by
  simp only [splice, List.length_append, List.length_take, List.length_drop]
  omega

/-- What holds of every octet can be checked octet by octet. -/
instance {P : Byte → Prop} [DecidablePred P] : Decidable (∀ b, P b) :=
  decidable_of_iff (∀ n : Fin 256, P ⟨⟨n⟩⟩) ⟨fun h b => h b.toBitVec.toFin, fun h _ => h _⟩

/-- How a handler can fail to return. -/
inductive Fault where
  /-- `abort()` -/
  | abort
  /-- an `assert` that does not hold -/
  | assertion
  /-- a read through a pointer that no initialiser has set -/
  | undefined
  deriving DecidableEq, Repr

/-! ## Peeling fallible code apart -/

section
variable {ε α β : Type}

theorem bind_eq_ok {x : Except ε α} {f : α → Except ε β} {b : β} :
    x >>= f = .ok b ↔ ∃ a, x = .ok a ∧ f a = .ok b := by
  cases x with
  | error e => simp [bind, Except.bind]
  | ok a => simp [bind, Except.bind]

theorem map_eq_ok {x : Except ε α} {f : α → β} {b : β} :
    x.map f = .ok b ↔ ∃ a, x = .ok a ∧ f a = b := by
  cases x <;> simp [Except.map]

theorem bind_ne_error {x : Except ε α} {f : α → Except ε β} {e : ε} (hx : x ≠ .error e)
    (hf : ∀ a, x = .ok a → f a ≠ .error e) : x >>= f ≠ .error e := by
  cases x with
  | error e' => exact fun h => hx (congrArg Except.error (Except.error.inj h))
  | ok a => exact hf a rfl

@[simp] theorem ok_bind (a : α) (f : α → Except ε β) : (Except.ok a >>= f) = f a := rfl

@[simp] theorem error_bind (e : ε) (f : α → Except ε β) : (Except.error e >>= f) = .error e := rfl

end

end Pop3Proxy
