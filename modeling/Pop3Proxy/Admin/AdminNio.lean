/-
# The handler of administration requests

`request_read`: one `recv` into the array of the connection, the parameters that
the second octet announces, and the answer of the decoder.
-/
import Pop3Proxy.Admin.SpeedwagonDecoder

namespace Pop3Proxy

open Traced

/-- `MAX_BUFFER` -/
abbrev maxBuffer : ℕ := 1024

/-- `enum pop3_admin_states` -/
inductive AdminStates where
  | requestRead
  | error
  deriving DecidableEq, Repr

/-- The memory of a connection, from the first octet of `buffer` to the last one
that may be read: the array has `MAX_BUFFER` octets, and something follows. -/
structure AdminMemory where
  octets : List Byte
  size : maxBuffer < octets.length

/-- The octets `recv` gives, when it gives any. -/
structure Received where
  octets : List Byte
  pos : 1 ≤ octets.length
  le : octets.length ≤ maxBuffer

/-- `bzero(buffer, sizeof(buffer))`, where `buffer` is a pointer. -/
def AdminMemory.bzero (m : AdminMemory) : AdminMemory where
  octets := splice m.octets 0 (List.replicate 8 0)
  size := by
    have hm : 1024 < m.octets.length := m.size
    rw [length_splice (by rw [List.length_replicate]; omega)]
    exact hm

/-- The memory after `recv` and `buffer[n] = 0`. -/
def AdminMemory.receive (m : AdminMemory) (r : Received) : AdminMemory where
  octets := (splice m.octets 0 r.octets).set r.octets.length 0
  size := by
    have hm := m.size
    have hr := r.le
    rw [List.length_set, length_splice (by omega)]
    exact hm

/-- The memory after `buffer[0] = response`. -/
def AdminMemory.answer (m : AdminMemory) (response : Byte) : AdminMemory where
  octets := m.octets.set 0 response
  size := by simpa using m.size

/-! ## The strings of the message -/

/-- The string that starts with the octet `bs` starts with, which has the index `p`. -/
def readString : ℕ → List Byte → AdminM (List Byte)
  | p, [] => do
    note (.read p)
    fail .segmentation
  | p, c :: cs => do
    note (.read p)
    if c = 0 then pure [] else do
      let s ← readString (p + 1) cs
      pure (c :: s)

/-- `strlen(buffer + p)` -/
def strlen (m : List Byte) (p : ℕ) : AdminM ℕ := do
  let s ← readString p (m.drop p)
  pure s.length

/-- The loop that builds the parameters. -/
def parseParameters (m : List Byte) : ℕ → ℕ → ℕ → AdminM (List (List Byte))
  | 0, _, _ => pure []
  | k + 1, i, pointer => do
    let _ ← strlen m pointer
    note (.build i)
    let s ← readString pointer (m.drop pointer)
    let n ← strlen m pointer
    let pointer := pointer + n + 1
    -- for `bytes_transfered`, after the pointer has moved
    let _ ← strlen m pointer
    let ss ← parseParameters m k (i + 1) pointer
    pure (s :: ss)

/-- The loop that prints the parameters. -/
def printParameters (parameters : List (List Byte)) : ℕ → ℕ → AdminM Unit
  | 0, _ => pure ()
  | k + 1, i => do
    let _ ← parameterAt parameters i
    printParameters parameters k (i + 1)

section
variable {m s t : List Byte} {p k i : ℕ}

/-- The octets of the string and its NUL are read. -/
theorem readString_eq (hs : 0 ∉ s) :
    readString p (s ++ 0 :: t) = ⟨(List.range' p (s.length + 1)).map .read, .ok s⟩ := by
  induction s generalizing p with
  | nil => rfl
  | cons c s ih =>
    rw [List.mem_cons, not_or] at hs
    rw [List.cons_append, readString, if_neg (Ne.symm hs.1), ih hs.2]
    simp [List.range'_succ]

/-- `strlen` reads a string and its NUL. -/
theorem strlen_eq (hm : m.drop p = s ++ 0 :: t) (hs : 0 ∉ s) :
    strlen m p = ⟨(List.range' p (s.length + 1)).map .read, .ok s.length⟩ := by
  rw [strlen, hm, readString_eq hs]
  exact (bind_of_ok rfl).trans (Traced.ext (List.append_nil _) rfl)

/-- The first octet is read in any case. -/
theorem read_mem_readString : Access.read p ∈ (readString p t).trace := by
  cases t with
  | nil => exact mem_trace_bind.mpr (.inl (by simp))
  | cons c t => exact mem_trace_bind.mpr (.inl (by simp))

/-- It reads the first octet in any case. -/
theorem read_mem_strlen : Access.read p ∈ (strlen m p).trace :=
  mem_trace_bind.mpr (.inl read_mem_readString)

/-- What is done for one parameter, up to the move of the pointer. -/
def parameterTrace (i p n : ℕ) : List Access :=
  (List.range' p (n + 1)).map .read ++ .build i :: (List.range' p (n + 1)).map .read ++
    (List.range' p (n + 1)).map .read

/-- One parameter. -/
theorem parseParameters_succ (hm : m.drop p = s ++ 0 :: t) (hs : 0 ∉ s) :
    parseParameters m (k + 1) i p = (do
      notes (parameterTrace i p s.length)
      let _ ← strlen m (p + s.length + 1)
      let ss ← parseParameters m k (i + 1) (p + s.length + 1)
      pure (s :: ss)) := by
  rw [parseParameters, strlen_eq hm hs, hm, readString_eq hs]
  simp [parameterTrace]

end

/-! ## `request_read` -/

/-- What the system does in one call: whether memory for the array of parameters
is left, what `response` holds when it is not assigned, and whether the answer
was sent and the interest set. -/
structure AdminIo where
  malloc : Bool
  unset : Byte
  sent : Bool

/-- What `request_read` does with what `recv` gives. -/
def handleRequest (io : AdminIo) (r : Received) (m : AdminMemory) (g : Globals) :
    AdminM (AdminStates × AdminMemory × Globals) := do
  let m := m.receive r
  note (.write r.octets.length)
  note (.read 0)
  let ebyte := m.octets.getD 0 0
  note (.read 1)
  let size := (m.octets.getD 1 0).toNat
  if 0 < size ∧ io.malloc = false then pure (.error, m, g) else do
    let parameters ← parseParameters m.octets size 0 2
    printParameters parameters size 0
    let (response, g) ← decodeRequest ebyte parameters size io.unset g
    note (.write 0)
    pure (if io.sent then .requestRead else .error, m.answer response, g)

/-- `request_read`, with `response_write` at its end: `recv` gives nothing at the
end of the stream or when it fails. -/
def requestRead (received : Option Received) (io : AdminIo) (m : AdminMemory) (g : Globals) :
    AdminM (AdminStates × AdminMemory × Globals) :=
  match received with
  | none => pure (.error, m.bzero, g)
  | some r => handleRequest io r m.bzero g

end Pop3Proxy
