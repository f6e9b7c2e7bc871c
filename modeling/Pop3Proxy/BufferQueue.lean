/-
# The buffer as a bounded queue

Whatever is done with a buffer, in any order, as long as no more octets are
announced or released than the pointers allow: it behaves as a bounded queue of
octets, and none of its assertions fails.
-/
import Pop3Proxy.Library.BoundedQueue
import Pop3Proxy.Buffer

namespace Pop3Proxy

/-! ## The use of a buffer -/

/-- What the code does with a buffer. -/
inductive BufferOp where
  | write (c : Byte)
  | read
  /-- octets stored at `buffer_write_ptr` and announced with `buffer_write_adv` -/
  | store (bs : List Byte)
  /-- `k` octets taken at `buffer_read_ptr` and released with `buffer_read_adv` -/
  | release (k : ℕ)
  | compact
  | reset
  deriving DecidableEq, Repr

/-- What the code is told. -/
inductive BufferAnswer where
  | done
  | octet (c : Byte)
  | room (n : ℕ)
  | octets (bs : List Byte)
  deriving DecidableEq, Repr

/-- What a caller does with the buffer and what it learns. -/
def bufferStep (b : Buffer) : BufferOp → Except Fault (Buffer × BufferAnswer)
  | .write c => (bufferWrite b c).map fun b => (b, .done)
  | .read => (bufferRead b).map fun p => (p.2, .octet p.1)
  | .store bs => do
    let n ← bufferWritePtr b
    let b ← bufferWriteAdv (b.store bs) bs.length
    .ok (b, .room n)
  | .release k => do
    let bs ← bufferReadPtr b
    let b ← bufferReadAdv b k
    .ok (b, .octets bs)
  | .compact => .ok (bufferCompact b, .done)
  | .reset => .ok (bufferReset b, .done)

/-- One operation after the other, and the answers. -/
def bufferRun : Buffer → List BufferOp → Except Fault (Buffer × List BufferAnswer)
  | b, [] => .ok (b, [])
  | b, op :: ops => do
    let r ← bufferStep b op
    let rs ← bufferRun r.1 ops
    .ok (rs.1, r.2 :: rs.2)

/-- No more octets than the count that came with the pointer. -/
def BufferOp.Counted (b : Buffer) : BufferOp → Prop
  | .store bs => ∀ n, bufferWritePtr b = .ok n → bs.length ≤ n
  | .release k => ∀ bs, bufferReadPtr b = .ok bs → k ≤ bs.length
  | _ => True

/-- The operations keep to the counts, each in the buffer it finds. -/
def Counted : Buffer → List BufferOp → Prop
  | _, [] => True
  | b, op :: ops => op.Counted b ∧ ∀ b' a, bufferStep b op = .ok (b', a) → Counted b' ops

/-! ## The use of a queue -/

/-- The same operation on a queue, and its answer. -/
def queueStep (q : BoundedQueue Byte) : BufferOp → BoundedQueue Byte × BufferAnswer
  | .write c => (q.offer [c], .done)
  | .read => (q.release 1, .octet (q.items.headD 0))
  | .store bs => (q.offer bs, .room q.room)
  | .release k => (q.release k, .octets q.items)
  | .compact => (q.compact, .done)
  | .reset => (q.clear, .done)

/-- The queue behind a sequence of operations, and the answers. -/
def queueRun : BoundedQueue Byte → List BufferOp → BoundedQueue Byte × List BufferAnswer
  | q, [] => (q, [])
  | q, op :: ops =>
    ((queueRun (queueStep q op).1 ops).1, (queueStep q op).2 :: (queueRun (queueStep q op).1 ops).2)

/-- The buffer holds the octets of the queue and offers its room. -/
structure Buffer.Refines (b : Buffer) (q : BoundedQueue Byte) : Prop where
  wf : b.Wf
  array : b.data.length = b.limit
  capacity : b.limit = q.capacity
  contents : b.contents = q.items
  room : b.limit - b.write = q.room
  /-- nothing to read is left only at the start of the array -/
  rewound : b.read = b.write → b.write = 0

namespace Buffer

section
variable {b : Buffer} {q : BoundedQueue Byte}

/-- A new buffer is an empty queue. -/
theorem refines_init (data : List Byte) :
    (bufferInit data.length data).Refines (.empty data.length) where
  wf := wf_init _ _
  array := rfl
  capacity := rfl
  contents := contents_init _ _
  room := rfl
  rewound _ := rfl

/-- The queue is as long as what lies between the pointers. -/
theorem Refines.items_length (h : b.Refines q) : q.items.length = b.write - b.read := by
  rw [← h.contents]
  exact length_contents h.wf

/-- A reset empties the queue. -/
theorem Refines.reset (h : b.Refines q) : (bufferReset b).Refines (.empty q.capacity) where
  wf := wf_reset b
  array := h.array
  capacity := h.capacity
  contents := contents_reset b
  room := h.capacity
  rewound _ := rfl

/-- Octets that fit are offered. -/
theorem Refines.push (h : b.Refines q) {bs : List Byte} (hfit : bs.length ≤ q.room) :
    (b.push bs).Refines (q.offer bs) := by
  have hroom := h.room
  have h₁ := h.wf.read_le_write
  have h₂ := h.wf.write_le_limit
  have hfit' : bs.length ≤ b.limit - b.write := by omega
  refine ⟨wf_push h.wf hfit', ?_, ?_, ?_, ?_, fun hmet => ?_⟩
  · have harray := h.array
    simp only [Buffer.push, store, List.length_append, List.length_take, List.length_drop]
    omega
  · rw [limit_push, q.capacity_offer]
    exact h.capacity
  · rw [contents_push h.wf, q.items_offer hfit, h.contents]
  · rw [limit_push, write_push, q.room_offer hfit]
    omega
  · rw [read_push, write_push] at hmet
    have hrewound := h.rewound (by omega)
    rw [write_push]
    omega

/-- Compacting makes the room of the queue whole. -/
theorem Refines.compact (h : b.Refines q) : (bufferCompact b).Refines q.compact := by
  have h₁ := h.wf.read_le_write
  have h₂ := h.wf.write_le_limit
  have hlen := h.items_length
  have hcap := h.capacity
  refine ⟨wf_compact h.wf, ?_, ?_, ?_, ?_, ?_⟩
  · have harray := h.array
    rw [limit_compact, bufferCompact]
    split_ifs
    · exact harray
    · exact harray
    · simp only [List.length_append, length_contents h.wf, List.length_drop]
      omega
  · rw [limit_compact]
    exact hcap
  · rw [contents_compact h.wf]
    exact h.contents
  · rw [limit_compact, BoundedQueue.room_compact, bufferCompact]
    split_ifs with h0 hmet
    · omega
    · rw [write_reset]
      omega
    · simp only
      omega
  · intro hmet
    rw [bufferCompact] at hmet ⊢
    split_ifs at hmet ⊢
    · exact h.rewound hmet
    · rfl
    · exact hmet.symm

/-- Where the offsets meet, compacting rewinds the buffer. -/
theorem bufferCompact_met (hmet : b.read = b.write) : bufferCompact b = bufferReset b := by
  obtain ⟨data, limit, r, w⟩ := b
  obtain rfl : r = w := hmet
  simp only [bufferCompact, bufferReset]
  split_ifs with h0
  · rw [h0]
  · rfl

/-- Releasing octets.  When they are the last ones the compaction of `buffer_read_adv` is a
rewind. -/
theorem Refines.readAdv (h : b.Refines q) {k : ℕ} (hk : k ≤ q.items.length) :
    ∃ b', bufferReadAdv b k = .ok b' ∧ b'.Refines (q.release k) := by
  have h₁ := h.wf.read_le_write
  have hlen := h.items_length
  obtain ⟨b', hres, hwf, hcontents, hlimit⟩ := bufferReadAdv_ok h.wf (n := k)
    (by rw [h.contents]; exact hk)
  have hneg : (-1 : Int) < (k : Int) := by omega
  rw [bufferReadAdv, if_pos hneg, Int.toNat_natCast, if_pos (by omega)] at hres
  rw [bufferReadAdv, if_pos hneg, Int.toNat_natCast, if_pos (by omega)]
  split_ifs at hres ⊢ with hmet
  -- nothing is left to read
  · rw [q.release_all (by omega), bufferCompact_met hmet]
    exact ⟨_, rfl, wf_reset _, h.array, h.capacity, contents_reset _, h.capacity, fun _ => rfl⟩
  · obtain rfl := Except.ok.inj hres
    refine ⟨_, rfl, hwf, h.array, ?_, ?_, ?_, fun h' => absurd h' hmet⟩
    · rw [q.capacity_release]
      exact h.capacity
    · rw [q.items_release, hcontents, h.contents]
    · rw [q.room_release (by omega)]
      exact h.room

/-! ## The simulation -/

/-- The read pointer is at the first octet of the queue. -/
theorem Refines.headD (h : b.Refines q) (hne : 0 < q.items.length) :
    b.data.getD b.read 0 = q.items.headD 0 := by
  have hlen := h.items_length
  have h₂ := h.wf.write_le_data
  rw [← h.contents, Buffer.contents, List.headD_eq_head?_getD, List.head?_take, if_neg (by omega),
    List.head?_drop, List.getD_eq_getElem?_getD]

/-- **One operation.** -/
theorem Refines.step (h : b.Refines q) {op : BufferOp} (hop : op.Counted b) :
    ∃ b', bufferStep b op = .ok (b', (queueStep q op).2) ∧ b'.Refines (queueStep q op).1 := by
  have h₂ := h.wf.write_le_limit
  have hroom := h.room
  have hlen := h.items_length
  cases op with
  | write c =>
    by_cases hfull : b.write < b.limit
    · have hfit : [c].length ≤ q.room := by
        rw [List.length_singleton]
        omega
      refine ⟨b.push [c], ?_, h.push hfit⟩
      have hadv : bufferWriteAdv (b.store [c]) [c].length = .ok (b.push [c]) :=
        bufferWriteAdv_store h.wf (by omega)
      rw [bufferStep, bufferWrite, if_pos (by simpa [bufferCanWrite] using hfull)]
      exact congrArg (Except.map fun b => (b, BufferAnswer.done)) hadv
    -- a full buffer drops the octet
    · have hfit : ¬ [c].length ≤ q.room := by
        rw [List.length_singleton]
        omega
      refine ⟨b, ?_, ?_⟩
      · rw [bufferStep, bufferWrite, if_neg (by simpa [bufferCanWrite] using hfull)]
        rfl
      · show b.Refines (q.offer [c])
        rw [q.offer_full hfit]
        exact h
  | read =>
    by_cases hmet : b.read < b.write
    · obtain ⟨b', hres, href⟩ := h.readAdv (k := 1) (by omega)
      refine ⟨b', ?_, href⟩
      rw [bufferStep, bufferRead, if_pos (by simpa [bufferCanRead] using hmet),
        h.headD (by omega)]
      exact congrArg (fun r => (r.map fun b' => (q.items.headD 0, b')).map fun p =>
        (p.2, BufferAnswer.octet p.1)) hres
    -- there is nothing to read, and 0 is returned
    · have hnil : q.items = [] := List.eq_nil_of_length_eq_zero (by omega)
      have h₁ := h.wf.read_le_write
      have hrewound := h.rewound (by omega)
      refine ⟨b, ?_, ?_⟩
      · rw [bufferStep, bufferRead, if_neg (by simpa [bufferCanRead] using hmet), queueStep, hnil]
        rfl
      · show b.Refines (q.release 1)
        rw [q.release_all (by omega)]
        refine ⟨h.wf, h.array, h.capacity, ?_, ?_, h.rewound⟩
        · rw [h.contents]
          exact hnil
        · have hcap := h.capacity
          rw [BoundedQueue.room_empty]
          omega
  | store bs =>
    have hfit : bs.length ≤ b.limit - b.write := hop _ (bufferWritePtr_ok h.wf)
    refine ⟨b.push bs, ?_, h.push (by omega)⟩
    rw [bufferStep, bufferWritePtr_ok h.wf, ok_bind, bufferWriteAdv_store h.wf hfit, ok_bind,
      queueStep, hroom]
  | release k =>
    have hk : k ≤ q.items.length := by
      rw [← h.contents]
      exact hop _ (bufferReadPtr_ok h.wf)
    obtain ⟨b', hres, href⟩ := h.readAdv hk
    refine ⟨b', ?_, href⟩
    rw [bufferStep, bufferReadPtr_ok h.wf, ok_bind, hres, ok_bind, queueStep, h.contents]
  | compact => exact ⟨_, rfl, h.compact⟩
  | reset => exact ⟨_, rfl, h.reset⟩

/-- **A whole run.** -/
theorem Refines.run {ops : List BufferOp} (h : b.Refines q) (hops : Counted b ops) :
    ∃ b', bufferRun b ops = .ok (b', (queueRun q ops).2) ∧ b'.Refines (queueRun q ops).1 := by
  induction ops generalizing b q with
  | nil => exact ⟨b, rfl, h⟩
  | cons op ops ih =>
    obtain ⟨b₁, hstep, h₁⟩ := h.step hops.1
    obtain ⟨b₂, hrun, h₂⟩ := ih h₁ (hops.2 _ _ hstep)
    refine ⟨b₂, ?_, h₂⟩
    rw [bufferRun, hstep, ok_bind, hrun, ok_bind]
    rfl

end

end Buffer

/-- **The buffer is a bounded queue.**  Any operations on a buffer just initialised
run without a failed assertion and answer as the queue does.  After them the
offsets are in order, what lies between them is what the queue holds, the room
offered is what the queue offers, and compacting changes nothing but the room. -/
theorem buffer_fifo (data : List Byte) (ops : List BufferOp)
    (hops : Counted (bufferInit data.length data) ops) :
    ∃ b, bufferRun (bufferInit data.length data) ops =
        .ok (b, (queueRun (.empty data.length) ops).2) ∧
      b.read ≤ b.write ∧ b.write ≤ b.limit ∧ b.limit = data.length ∧
      b.data.length = data.length ∧
      b.contents = (queueRun (.empty data.length) ops).1.items ∧
      bufferWritePtr b = .ok (b.limit - b.write) ∧
      b.limit - b.write = (queueRun (.empty data.length) ops).1.room ∧
      (bufferCompact b).contents = b.contents ∧
      bufferWritePtr (bufferCompact b) = .ok (data.length - b.contents.length) := by
  obtain ⟨b, hrun, h⟩ := (Buffer.refines_init data).run hops
  have hcap : ∀ (q : BoundedQueue Byte) ops, (queueRun q ops).1.capacity = q.capacity := by
    intro q ops
    induction ops generalizing q with
    | nil => rfl
    | cons op ops ih =>
      rw [queueRun, ih]
      cases op <;> simp [queueStep, BoundedQueue.clear]
  have hlimit : b.limit = data.length := h.capacity.trans (hcap _ ops)
  have hcompact := h.compact
  refine ⟨b, hrun, h.wf.read_le_write, h.wf.write_le_limit, hlimit, h.array.trans hlimit,
    h.contents, Buffer.bufferWritePtr_ok h.wf, h.room, Buffer.contents_compact h.wf, ?_⟩
  rw [Buffer.bufferWritePtr_ok hcompact.wf, hcompact.room, BoundedQueue.room_compact, h.contents,
    hcap]
  rfl

/-- The octet left over is moved to the start, and the next one is written behind it. -/
theorem buffer_fifo_compacted :
    ∃ b, bufferRun (bufferInit 3 [0, 0, 0])
        [.store [1, 2, 3], .release 2, .compact, .write 4, .read] =
      .ok (b, [.room 3, .octets [1, 2, 3], .done, .done, .octet 3]) ∧ b.contents = [4] := by
  obtain ⟨b, hrun, -, -, -, -, hcontents, -⟩ := buffer_fifo [0, 0, 0]
    [.store [1, 2, 3], .release 2, .compact, .write 4, .read] (by
      simp [Counted, BufferOp.Counted, bufferStep, bufferInit, bufferWritePtr, bufferWriteAdv,
        Buffer.store, bufferReadPtr, Buffer.contents])
  exact ⟨b, hrun, hcontents⟩

end Pop3Proxy
