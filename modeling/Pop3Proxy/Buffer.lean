/-
# The I/O buffer

`buffer.c`: an array with a read and a write offset.  Octets are stored at the
write offset and then announced with `buffer_write_adv`; they are taken from the
read offset and then released with `buffer_read_adv`, which compacts for free
when the two offsets meet.

The abstract side is the list of octets between the offsets
(`Buffer.contents`); each operation is followed by the lemma that says what it
does to that list and that it keeps `Buffer.Wf`.
-/
import Pop3Proxy.Basic
import Mathlib.Tactic.Common

namespace Pop3Proxy

/-- `struct buffer`: `data` holds the octets stored in the array so far, the
other fields are the pointers of the struct as offsets into the array. -/
structure Buffer where
  data : List Byte
  limit : ℕ
  read : ℕ
  write : ℕ
  deriving DecidableEq, Repr

namespace Buffer

/-- The invariant of `buffer.h`: `R <= W <= limit`. -/
structure Wf (b : Buffer) : Prop where
  read_le_write : b.read ≤ b.write
  write_le_data : b.write ≤ b.data.length
  write_le_limit : b.write ≤ b.limit

/-- The octets written and not yet read. -/
def contents (b : Buffer) : List Byte := (b.data.drop b.read).take (b.write - b.read)

/-- The octets a system call puts in memory at the write pointer. -/
def store (b : Buffer) (bs : List Byte) : Buffer :=
  { b with data := b.data.take b.write ++ bs ++ b.data.drop (b.write + bs.length) }

end Buffer

/-! ## The operations -/

/-- `buffer_reset` -/
def bufferReset (b : Buffer) : Buffer := { b with read := 0, write := 0 }

/-- `buffer_init` on an array of `n` octets that starts with `data`. -/
def bufferInit (n : ℕ) (data : List Byte) : Buffer := ⟨data, n, 0, 0⟩

/-- `buffer_can_write` -/
def bufferCanWrite (b : Buffer) : Bool := b.write < b.limit

/-- `buffer_can_read` -/
def bufferCanRead (b : Buffer) : Bool := b.read < b.write

/-- `buffer_write_ptr`: the count stored in `*nbyte`. -/
def bufferWritePtr (b : Buffer) : Except Fault ℕ :=
  if b.write ≤ b.limit then .ok (b.limit - b.write) else .error .assertion

/-- `buffer_read_ptr`: the octets from the returned pointer on, as many as
`*nbyte` says. -/
def bufferReadPtr (b : Buffer) : Except Fault (List Byte) :=
  if b.read ≤ b.write then .ok b.contents else .error .assertion

/-- `buffer_compact` -/
def bufferCompact (b : Buffer) : Buffer :=
  if b.read = 0 then b
  else if b.read = b.write then bufferReset b
  else { b with
    data := b.contents ++ b.data.drop (b.write - b.read), read := 0, write := b.write - b.read }

/-- `buffer_write_adv` -/
def bufferWriteAdv (b : Buffer) (bytes : Int) : Except Fault Buffer :=
  if -1 < bytes then
    if b.write + bytes.toNat ≤ b.limit then .ok { b with write := b.write + bytes.toNat }
    else .error .assertion
  else .ok b

/-- `buffer_read_adv` -/
def bufferReadAdv (b : Buffer) (bytes : Int) : Except Fault Buffer :=
  if -1 < bytes then
    if b.read + bytes.toNat ≤ b.write then
      if b.read + bytes.toNat = b.write then
        .ok (bufferCompact { b with read := b.read + bytes.toNat })
      else .ok { b with read := b.read + bytes.toNat }
    else .error .assertion
  else .ok b

/-- `buffer_read`: an octet, or 0 when there is none. -/
def bufferRead (b : Buffer) : Except Fault (Byte × Buffer) :=
  if bufferCanRead b then (bufferReadAdv b 1).map fun b' => (b.data.getD b.read 0, b')
  else .ok (0, b)

/-- `buffer_write`: an octet for which there is no room is dropped. -/
def bufferWrite (b : Buffer) (c : Byte) : Except Fault Buffer :=
  if bufferCanWrite b then bufferWriteAdv (b.store [c]) 1 else .ok b

/-! ## What they do to the contents -/

namespace Buffer

variable {b : Buffer}

/-- There is as much as lies between the pointers. -/
theorem length_contents (h : b.Wf) : b.contents.length = b.write - b.read := by
  have h1 := h.read_le_write
  have h2 := h.write_le_data
  simp only [contents, List.length_take, List.length_drop]
  omega

/-- There is something to read unless it is empty. -/
theorem bufferCanRead_eq (h : b.Wf) : bufferCanRead b = !b.contents.isEmpty := by
  have hlen := length_contents h
  cases hc : b.contents with
  | nil =>
    rw [hc] at hlen
    simp only [List.length_nil] at hlen
    simp only [bufferCanRead, List.isEmpty_nil, Bool.not_true, decide_eq_false_iff_not]
    omega
  | cons c cs =>
    rw [hc] at hlen
    simp only [List.length_cons] at hlen
    simp only [bufferCanRead, List.isEmpty_cons, Bool.not_false, decide_eq_true_eq]
    omega

/-- A new buffer is well formed. -/
theorem wf_init (n : ℕ) (data : List Byte) : (bufferInit n data).Wf :=
  ⟨Nat.le_refl _, Nat.zero_le _, Nat.zero_le _⟩

/-- So is one that was reset. -/
theorem wf_reset (b : Buffer) : (bufferReset b).Wf :=
  ⟨Nat.le_refl _, Nat.zero_le _, Nat.zero_le _⟩

@[simp] theorem contents_init (n : ℕ) (data : List Byte) : (bufferInit n data).contents = [] := by
  simp [contents, bufferInit]

@[simp] theorem contents_reset (b : Buffer) : (bufferReset b).contents = [] := by
  simp [contents, bufferReset]

@[simp] theorem write_init (n : ℕ) (data : List Byte) : (bufferInit n data).write = 0 := rfl

@[simp] theorem write_reset (b : Buffer) : (bufferReset b).write = 0 := rfl

@[simp] theorem limit_init (n : ℕ) (data : List Byte) : (bufferInit n data).limit = n := rfl

@[simp] theorem limit_reset (b : Buffer) : (bufferReset b).limit = b.limit := rfl

@[simp] theorem limit_store (b : Buffer) (bs : List Byte) : (b.store bs).limit = b.limit := rfl

/-- The room behind the write pointer. -/
theorem bufferWritePtr_ok (h : b.Wf) : bufferWritePtr b = .ok (b.limit - b.write) :=
  if_pos h.write_le_limit

/-- The octets between the pointers. -/
theorem bufferReadPtr_ok (h : b.Wf) : bufferReadPtr b = .ok b.contents :=
  if_pos h.read_le_write

/-- The buffer after a chunk has been stored and announced. -/
def push (b : Buffer) (bs : List Byte) : Buffer :=
  { b.store bs with write := b.write + bs.length }

@[simp] theorem limit_push (b : Buffer) (bs : List Byte) : (b.push bs).limit = b.limit := rfl

@[simp] theorem write_push (b : Buffer) (bs : List Byte) :
    (b.push bs).write = b.write + bs.length := rfl

@[simp] theorem read_push (b : Buffer) (bs : List Byte) : (b.push bs).read = b.read := rfl

/-- Storing a chunk that fits and announcing it is `push`. -/
theorem bufferWriteAdv_store {bs : List Byte} (h : b.Wf) (hfit : bs.length ≤ b.limit - b.write) :
    bufferWriteAdv (b.store bs) bs.length = .ok (b.push bs) := by
  have h3 := h.write_le_limit
  have hneg : (-1 : Int) < (bs.length : Int) := by omega
  have hroom : (b.store bs).write + bs.length ≤ (b.store bs).limit := by
    simp only [store]
    omega
  rw [bufferWriteAdv, if_pos hneg, Int.toNat_natCast, if_pos hroom]
  rfl

/-- Octets that fit leave it well formed. -/
theorem wf_push {bs : List Byte} (h : b.Wf) (hfit : bs.length ≤ b.limit - b.write) :
    (b.push bs).Wf := by
  have h1 := h.read_le_write
  have h2 := h.write_le_data
  have h3 := h.write_le_limit
  refine ⟨?_, ?_, ?_⟩
  · simp only [read_push, write_push]
    omega
  · simp only [push, store, List.length_append, List.length_take, List.length_drop]
    omega
  · simp only [write_push, limit_push]
    omega

/-- **Writing.**  A chunk stored and announced is appended to the contents. -/
theorem contents_push {bs : List Byte} (h : b.Wf) :
    (b.push bs).contents = b.contents ++ bs := by
  have h1 := h.read_le_write
  have h2 := h.write_le_data
  have hlen : (b.data.take b.write).length = b.write := by
    rw [List.length_take]
    omega
  simp only [contents, push, store]
  rw [List.append_assoc, List.drop_append_of_le_length (by omega), List.drop_take,
    List.take_append]
  congr 1
  · rw [List.take_take]
    congr 1
    omega
  · have hk : b.write + bs.length - b.read - ((b.data.drop b.read).take (b.write - b.read)).length
        = bs.length := by
      simp only [List.length_drop, List.length_take]
      omega
    rw [hk, List.take_left']
    rfl

/-- The buffer after a chunk has been stored and only its first `n` octets announced. -/
def pushPart (b : Buffer) (bs : List Byte) (n : ℕ) : Buffer :=
  { b.push bs with write := b.write + n }

/-- Announcing a chunk, going back, and announcing a part of it. -/
theorem bufferWriteAdv_rewind {bs : List Byte} {n : ℕ} (h : b.Wf)
    (hfit : bs.length ≤ b.limit - b.write) (hn : n ≤ bs.length) :
    bufferWriteAdv { b.push bs with write := b.write } n = .ok (b.pushPart bs n) := by
  have h3 := h.write_le_limit
  have hneg : (-1 : Int) < (n : Int) := by omega
  have hroom : b.write + n ≤ b.limit := by omega
  rw [bufferWriteAdv, if_pos hneg, Int.toNat_natCast]
  exact if_pos hroom

/-- So do octets of which not all are announced. -/
theorem wf_pushPart {bs : List Byte} {n : ℕ} (h : b.Wf) (hfit : bs.length ≤ b.limit - b.write)
    (hn : n ≤ bs.length) : (b.pushPart bs n).Wf := by
  have hp := wf_push h hfit
  have h1 := h.read_le_write
  have h2 := hp.write_le_data
  have h3 := hp.write_le_limit
  rw [write_push] at h2 h3
  exact ⟨by simp only [pushPart, read_push]; omega, by simp only [pushPart]; omega,
    by simp only [pushPart, limit_push] at h3 ⊢; omega⟩

/-- Only the announced part of the chunk is appended to the contents. -/
theorem contents_pushPart {bs : List Byte} {n : ℕ} (h : b.Wf) (hn : n ≤ bs.length) :
    (b.pushPart bs n).contents = b.contents ++ bs.take n := by
  have hlen := length_contents h
  have h1 := h.read_le_write
  have htake : (b.pushPart bs n).contents =
      (b.push bs).contents.take (b.contents.length + n) := by
    simp only [contents, pushPart, read_push, write_push, List.take_take]
    congr 1
    simp only [contents] at hlen
    omega
  rw [htake, contents_push h, List.take_length_add_append]

/-- Compaction keeps the contents. -/
theorem contents_compact (h : b.Wf) : (bufferCompact b).contents = b.contents := by
  have hlen := length_contents h
  unfold bufferCompact
  split_ifs with h0 heq
  · rfl
  · have : b.contents = [] := List.eq_nil_of_length_eq_zero (by omega)
    rw [this, contents_reset]
  · simp only [contents, List.drop_zero, Nat.sub_zero] at hlen ⊢
    rw [List.take_append_of_le_length (by omega), List.take_of_length_le (by omega)]

/-- Compacting leaves it well formed. -/
theorem wf_compact (h : b.Wf) : (bufferCompact b).Wf := by
  have h3 := h.write_le_limit
  have hlen := length_contents h
  unfold bufferCompact
  split_ifs with h0 heq
  · exact h
  · exact wf_reset b
  · refine ⟨Nat.zero_le _, ?_, ?_⟩
    · simp only [List.length_append, hlen]
      omega
    · simp only
      omega

@[simp] theorem limit_compact (b : Buffer) : (bufferCompact b).limit = b.limit := by
  unfold bufferCompact
  split_ifs <;> rfl

/-- **Reading.**  Releasing `n` octets drops them from the contents. -/
theorem bufferReadAdv_ok {n : ℕ} (h : b.Wf) (hn : n ≤ b.contents.length) :
    ∃ b', bufferReadAdv b n = .ok b' ∧ b'.Wf ∧ b'.contents = b.contents.drop n ∧
      b'.limit = b.limit := by
  have h1 := h.read_le_write
  have h2 := h.write_le_data
  have h3 := h.write_le_limit
  rw [length_contents h] at hn
  have hneg : (-1 : Int) < (n : Int) := by omega
  have hwf : ({ b with read := b.read + n } : Buffer).Wf :=
    ⟨by simp only; omega, h2, h3⟩
  have hcont : ({ b with read := b.read + n } : Buffer).contents = b.contents.drop n := by
    simp only [contents, List.drop_take, List.drop_drop]
    congr 1
    omega
  rw [bufferReadAdv, if_pos hneg, Int.toNat_natCast, if_pos (by omega)]
  split_ifs with heq
  · exact ⟨_, rfl, wf_compact hwf, (contents_compact hwf).trans hcont, limit_compact _⟩
  · exact ⟨_, rfl, hwf, hcont, rfl⟩

end Buffer

end Pop3Proxy
