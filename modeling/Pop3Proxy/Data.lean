/-
# The data of a connection

Between two events the three buffers are well formed and `union origin` holds
the variant the current state works with.  On such data every handler returns
(`attempt_connection` unless `connect` succeeds at once), and what it leaves
behind is such data again.
-/
import Pop3Proxy.Suscription

namespace Pop3Proxy

/-- The variants of `union origin`. -/
inductive OriginKind where
  | connecting
  | greeting
  | response
  deriving DecidableEq, Repr

/-- The variant that was initialised last. -/
def Origin.kind : Origin → OriginKind
  | connecting _ => .connecting
  | greeting _ => .greeting
  | response _ _ => .response

/-- The variant a state works with. -/
def States.uses : States → Option OriginKind
  | .processConnection | .resolvConnection | .establConnection => some .connecting
  | .greetingSread | .greetingCwrite => some .greeting
  | .responseSread | .dotDataSread | .dotDataCwrite | .responseCwrite => some .response
  | .commandCread | .commandSwrite | .pipeDream | .update | .error => none

/-- The buffers are well formed, and the variant is `k`. -/
structure DataWf (c : Pop3) (k : OriginKind) : Prop where
  readBuffer : c.readBuffer.Wf
  writeBuffer : c.writeBuffer.Wf
  transBuffer : c.transBuffer.Wf
  kind : c.origin.kind = k

/-- The call returns and leaves good data of the connection `a` behind. -/
def Returns (a : Addr) (k : OriginKind) (r : Except Fault (States × World)) : Prop :=
  ∃ next w', r = .ok (next, w') ∧ DataWf (w'.heap a) k

theorem dataWf_new (client : Int) : DataWf (.new client) .connecting :=
  ⟨Buffer.wf_init _ _, Buffer.wf_init _ _, Buffer.wf_init _ _, rfl⟩

/-! ## The memory behind the primitives -/

section
variable (w : World) (a b : Addr) (io : Io) (fd fd' : Int) (i : FdInterest) (next : States)

@[simp] theorem World.heap_modify (f : Pop3 → Pop3) : (w.modify a f).heap a = f (w.heap a) :=
  Function.update_self _ _ _

@[simp] theorem World.heap_emit (o : Output) : (w.emit o).heap = w.heap := rfl
@[simp] theorem World.heap_openFd : (w.openFd fd).heap = w.heap := rfl
@[simp] theorem World.heap_closeFd : (w.closeFd fd).heap = w.heap := rfl
@[simp] theorem World.heap_register : (w.register io fd i b).2.heap = w.heap := rfl
@[simp] theorem World.heap_armed : (w.armed fd i next).2.heap = w.heap := rfl
@[simp] theorem World.heap_handOver : (w.handOver fd fd' i next).2.heap = w.heap := rfl
@[simp] theorem World.heap_toClient : (w.toClient b next).2.heap = w.heap := rfl
@[simp] theorem World.heap_toOrigin : (w.toOrigin b i next).2.heap = w.heap := rfl

end

section
variable {a : Addr} {k : OriginKind} {c : Pop3} {io : Io} {key : SelectorKey} {w : World}

theorem returns_ok {r : States × World} (h : DataWf (r.2.heap a) k) : Returns a k (.ok r) :=
  ⟨r.1, r.2, rfl, h⟩

theorem returns_bind {α : Type} {x : Except Fault α} {v : α} {f : α → Except Fault (States × World)}
    (hx : x = .ok v) (hf : Returns a k (f v)) : Returns a k (x >>= f) := by
  rw [hx]
  exact hf

theorem Origin.asConnecting_ok {o : Origin} (h : o.kind = .connecting) :
    ∃ server, o.asConnecting = .ok server := by
  cases o <;> first | exact ⟨_, rfl⟩ | cases h

theorem Origin.asGreeting_ok {o : Origin} (h : o.kind = .greeting) :
    ∃ p, o.asGreeting = .ok p := by
  cases o <;> first | exact ⟨_, rfl⟩ | cases h

theorem Origin.asResponse_ok {o : Origin} (h : o.kind = .response) :
    ∃ pm, o.asResponse = .ok pm := by
  cases o <;> first | exact ⟨_, rfl⟩ | cases h

/-- The chunk `recv` returns fits where it is stored. -/
theorem length_upTo {found : Option (List Byte)} {count : ℕ} {bs : List Byte}
    (h : upTo found count = some bs) : bs.length ≤ count := by
  cases found with
  | none => cases h
  | some xs =>
    simp only [upTo, Option.map_some, Option.some.injEq] at h
    rw [← h, List.length_take]
    exact Nat.min_le_left _ _

theorem length_taken {send : Option ℕ} {bytes sent : List Byte}
    (h : taken send bytes = some sent) : sent.length ≤ bytes.length := by
  cases send with
  | none => cases h
  | some n =>
    simp only [taken, Option.map_some, Option.some.injEq] at h
    rw [← h, List.length_take]
    exact Nat.min_le_right _ _

/-! ## The handlers, one by one -/

theorem attemptConnection_returns (h : DataWf (w.heap key.data) k) (hcon : ¬ ConnectsAtOnce io w) :
    Returns key.data k (attemptConnection io key w) := by
  have hdata : ∀ {w' : World}, (∃ fd refs, w'.heap key.data =
      { w.heap key.data with originFd := fd, references := refs }) →
      Returns key.data k (.ok (.establConnection, w')) := by
    rintro w' ⟨fd, refs, hw'⟩
    refine returns_ok ?_
    rw [hw']
    exact ⟨h.readBuffer, h.writeBuffer, h.transBuffer, h.kind⟩
  unfold attemptConnection
  cases hf : w.fresh io.socket with
  | none => exact hdata ⟨-1, (w.heap key.data).references, by simp⟩
  | some s =>
    simp only
    split_ifs with hnio hconnect herrno hst hst'
    · exact hdata ⟨s, (w.heap key.data).references, by simp⟩
    · exact absurd ⟨by rw [hf]; rfl, by simpa using hnio, hconnect⟩ hcon
    · exact hdata ⟨-1, (w.heap key.data).references, by simp [closeOrigin]⟩
    · exact hdata ⟨-1, (w.heap key.data).references, by simp [closeOrigin]⟩
    · exact hdata ⟨-1, (w.heap key.data).references, by simp [closeOrigin]⟩
    · exact hdata ⟨s, (w.heap key.data).references + 1, by simp⟩

theorem processConnection_returns (server : AddrType) (h : DataWf (w.heap key.data) .connecting)
    (hserver : (w.heap key.data).origin = .connecting server)
    (hcon : server ≠ .domain → ¬ ConnectsAtOnce io w) :
    Returns key.data .connecting (processConnection io key w) := by
  unfold processConnection
  refine returns_bind (v := server) (by rw [hserver]; rfl) ?_
  cases server with
  | ipv4 | ipv6 =>
    refine attemptConnection_returns ?_ (hcon (by simp))
    rw [World.heap_modify]
    exact ⟨h.readBuffer, h.writeBuffer, h.transBuffer, h.kind⟩
  | domain =>
    simp only
    split_ifs <;> exact returns_ok h

theorem resolvConnection_returns (h : DataWf (w.heap key.data) .connecting)
    (hcon : ¬ ConnectsAtOnce io w) :
    Returns key.data .connecting (resolvConnection io key w) := by
  obtain ⟨server, hserver⟩ := Origin.asConnecting_ok h.kind
  unfold resolvConnection
  refine returns_bind hserver ?_
  cases (w.heap key.data).originResolution with
  | none => exact attemptConnection_returns h hcon
  | some family =>
    refine attemptConnection_returns ?_ hcon
    rw [World.heap_modify]
    exact ⟨h.readBuffer, h.writeBuffer, h.transBuffer, h.kind⟩

theorem establConnection_returns (h : DataWf (w.heap key.data) .connecting) :
    Returns key.data .connecting (establConnection key w) := by
  obtain ⟨server, hserver⟩ := Origin.asConnecting_ok h.kind
  unfold establConnection
  exact returns_bind hserver (returns_ok h)

theorem greetingSread_returns (h : DataWf (w.heap key.data) .greeting) :
    Returns key.data .greeting (greetingSread io key w) := by
  obtain ⟨p, hp⟩ := Origin.asGreeting_ok h.kind
  unfold greetingSread
  refine returns_bind hp (returns_bind (Buffer.bufferWritePtr_ok h.readBuffer) ?_)
  split
  · rename_i b bs hrecv
    have hfit := length_upTo hrecv
    refine returns_bind (Buffer.bufferWriteAdv_store h.readBuffer hfit) ?_
    have hdata : DataWf { w.heap key.data with
        readBuffer := (w.heap key.data).readBuffer.push (b :: bs)
        origin := .greeting (pop3SinglelineResponseBuilder (b :: bs) p none).state.1 } .greeting :=
      ⟨Buffer.wf_push h.readBuffer hfit, h.writeBuffer, h.transBuffer, rfl⟩
    simp only
    split_ifs <;> exact returns_ok (by simpa using hdata)
  · split_ifs <;> exact returns_ok h

theorem greetingCwrite_returns (h : DataWf (w.heap key.data) .greeting) :
    Returns key.data .greeting (greetingCwrite io key w) := by
  obtain ⟨p, hp⟩ := Origin.asGreeting_ok h.kind
  unfold greetingCwrite
  refine returns_bind hp (returns_bind (Buffer.bufferReadPtr_ok h.writeBuffer) ?_)
  split
  · rename_i sent hsent
    obtain ⟨b, hb, hwf, -⟩ := Buffer.bufferReadAdv_ok h.writeBuffer (length_taken hsent)
    refine returns_bind hb ?_
    have hdata : DataWf { w.heap key.data with writeBuffer := b } .greeting :=
      ⟨h.readBuffer, hwf, h.transBuffer, h.kind⟩
    simp only
    split_ifs <;> exact returns_ok (by simpa using hdata)
  · exact returns_ok h

theorem commandCread_returns (h : DataWf (w.heap key.data) k) :
    Returns key.data k (commandCread io key w) := by
  unfold commandCread
  refine returns_bind (Buffer.bufferWritePtr_ok h.readBuffer) ?_
  split
  · rename_i b bs hrecv
    have hfit := length_upTo hrecv
    have hread : (commandBuilder (b :: bs) (w.heap key.data).commandParser
        (w.heap key.data).currentCommand).read ≤ (b :: bs).length := Scan.scan_read_le _ _ _
    have hwf := Buffer.wf_pushPart h.readBuffer hfit hread
    refine returns_bind (Buffer.bufferWriteAdv_store h.readBuffer hfit)
      (returns_bind (Buffer.bufferWriteAdv_rewind h.readBuffer hfit hread) ?_)
    simp only
    split
    · refine returns_ok ?_
      simp only [World.heap_toOrigin, World.heap_modify]
      split_ifs <;> exact ⟨hwf, h.writeBuffer, h.transBuffer, h.kind⟩
    · exact returns_ok (by simpa using ⟨hwf, h.writeBuffer, h.transBuffer, h.kind⟩)
    · exact returns_ok (by simpa using ⟨hwf, h.writeBuffer, h.transBuffer, h.kind⟩)
  · exact returns_ok h

theorem commandSwrite_returns (h : DataWf (w.heap key.data) k) :
    Returns key.data k (commandSwrite io key w) := by
  unfold commandSwrite
  refine returns_bind (Buffer.bufferReadPtr_ok h.readBuffer) ?_
  split
  · rename_i sent hsent
    have hlen := length_taken hsent
    rw [Buffer.length_contents h.readBuffer] at hlen
    have h1 := h.readBuffer.read_le_write
    have hwf : Buffer.Wf { (w.heap key.data).readBuffer with
        read := (w.heap key.data).readBuffer.read + sent.length } :=
      ⟨by simp only; omega, h.readBuffer.write_le_data, h.readBuffer.write_le_limit⟩
    have hdata : DataWf { w.heap key.data with
        readBuffer := { (w.heap key.data).readBuffer with
          read := (w.heap key.data).readBuffer.read + sent.length } } k :=
      ⟨hwf, h.writeBuffer, h.transBuffer, h.kind⟩
    simp only
    split_ifs <;> exact returns_ok (by simpa using hdata)
  · exact returns_ok h

/-! ### The reply -/

/-- A step of a handler that is not its last one. -/
def Passes (a : Addr) (k : OriginKind) (r : Except Fault World) : Prop :=
  ∃ w', r = .ok w' ∧ DataWf (w'.heap a) k

theorem Passes.bind {r : Except Fault World} {f : World → Except Fault (States × World)}
    (hr : Passes a k r) (hf : ∀ w', DataWf (w'.heap a) k → Returns a k (f w')) :
    Returns a k (r >>= f) := by
  obtain ⟨w', rfl, hw'⟩ := hr
  exact hf w' hw'

theorem heap_createTransformation (io : Io) (a : Addr) (w : World) :
    ∃ p q, (createTransformation io a w).heap a =
      { w.heap a with senderPipe := p, receiverPipe := q } := by
  unfold createTransformation
  cases w.freshPair io.senderPipe with
  | none => exact ⟨(w.heap a).senderPipe, (w.heap a).receiverPipe, rfl⟩
  | some p =>
    simp only
    split
    · exact ⟨p, (w.heap a).receiverPipe, by simp⟩
    · rename_i q _
      exact ⟨p, q, by simp⟩

theorem feedFilter_passes (h : DataWf (w.heap a) k) : Passes a k (feedFilter a w) := by
  refine ⟨w.emit (.wrote (w.heap a).senderPipe.2 (w.heap a).writeBuffer.contents), ?_, h⟩
  unfold feedFilter
  rw [Buffer.bufferReadPtr_ok h.writeBuffer]
  rfl

theorem announceRead_ok {tb : Buffer} (h : tb.Wf) (found : Option (List Byte)) :
    ∃ tb', announceRead tb (upTo found (tb.limit - tb.write)) = .ok tb' ∧ tb'.Wf := by
  cases hread : upTo found (tb.limit - tb.write) with
  | none => exact ⟨tb, rfl, h⟩
  | some bs =>
    have hfit := length_upTo hread
    exact ⟨tb.push bs, Buffer.bufferWriteAdv_store h hfit, Buffer.wf_push h hfit⟩

theorem readFilter_passes (h : DataWf (w.heap a) k) : Passes a k (readFilter io a w) := by
  obtain ⟨tb, htb, hwf⟩ := announceRead_ok h.transBuffer io.pipeRead
  refine ⟨w.modify a fun c => { c with transBuffer := tb }, ?_, ?_⟩
  · simp only [readFilter]
    rw [Buffer.bufferWritePtr_ok h.transBuffer, ok_bind, htb, ok_bind]
  · rw [World.heap_modify]
    exact ⟨h.readBuffer, h.writeBuffer, hwf, h.kind⟩

theorem startFilter_passes (h : DataWf (w.heap a) k) : Passes a k (startFilter io a w) := by
  obtain ⟨p, q, hpipe⟩ := heap_createTransformation io a w
  have h₁ : DataWf ((createTransformation io a w).heap a) k := by
    rw [hpipe]
    exact ⟨h.readBuffer, h.writeBuffer, h.transBuffer, h.kind⟩
  obtain ⟨w₁, hfeed, h₂⟩ := feedFilter_passes h₁
  unfold startFilter
  rw [hfeed]
  exact readFilter_passes h₂

theorem continueFilter_passes (h : DataWf (w.heap a) k) : Passes a k (continueFilter io a w) := by
  obtain ⟨w₁, hfeed, h₁⟩ := feedFilter_passes h
  unfold continueFilter
  rw [hfeed]
  refine readFilter_passes ?_
  rw [World.heap_modify]
  exact ⟨h₁.readBuffer, h₁.writeBuffer, Buffer.wf_reset _, h₁.kind⟩

theorem responseMultiline_returns {chunk : List Byte} {p : SinglelineState} {m : MultilineState}
    (h : DataWf (w.heap key.data) .response) :
    Returns key.data .response (responseMultiline io key chunk p m w) := by
  have hdata : ∀ transform m', DataWf ((w.modify key.data fun c =>
      { c with origin := .response p m', transform := transform }).heap key.data) .response := by
    intro transform m'
    rw [World.heap_modify]
    exact ⟨h.readBuffer, h.writeBuffer, h.transBuffer, rfl⟩
  unfold responseMultiline
  refine Passes.bind ?_ fun w' hw' => returns_ok hw'
  split_ifs
  · exact startFilter_passes (hdata _ _)
  · exact ⟨_, rfl, hdata _ _⟩

theorem responseSread_returns (h : DataWf (w.heap key.data) .response) :
    Returns key.data .response (responseSread io key w) := by
  obtain ⟨⟨p, m⟩, hpm⟩ := Origin.asResponse_ok h.kind
  unfold responseSread
  refine returns_bind hpm (returns_bind (Buffer.bufferWritePtr_ok h.writeBuffer) ?_)
  split
  · rename_i b bs hrecv
    have hfit := length_upTo hrecv
    refine returns_bind (Buffer.bufferWriteAdv_store h.writeBuffer hfit) ?_
    have hdata : DataWf ((w.modify key.data fun c =>
        { c with
          writeBuffer := (w.heap key.data).writeBuffer.push (b :: bs)
          origin := .response (pop3SinglelineResponseBuilder (b :: bs) p none).state.1 m }).heap
            key.data) .response := by
      rw [World.heap_modify]
      exact ⟨h.readBuffer, Buffer.wf_push h.writeBuffer hfit, h.transBuffer, rfl⟩
    simp only
    split_ifs
    · split
      · exact responseMultiline_returns hdata
      · exact responseMultiline_returns hdata
      · exact returns_ok hdata
    · exact returns_ok hdata
  · exact returns_ok h

theorem dotDataSread_returns (h : DataWf (w.heap key.data) .response) :
    Returns key.data .response (dotDataSread io key w) := by
  obtain ⟨pm, hpm⟩ := Origin.asResponse_ok h.kind
  unfold dotDataSread
  refine returns_bind hpm (returns_bind (Buffer.bufferWritePtr_ok h.writeBuffer) ?_)
  split
  · rename_i b bs hrecv
    have hfit := length_upTo hrecv
    refine returns_bind (Buffer.bufferWriteAdv_store h.writeBuffer hfit) ?_
    have hdata : DataWf ((w.modify key.data fun c =>
        { c with writeBuffer := (w.heap key.data).writeBuffer.push (b :: bs) }).heap key.data)
          .response := by
      rw [World.heap_modify]
      exact ⟨h.readBuffer, Buffer.wf_push h.writeBuffer hfit, h.transBuffer, h.kind⟩
    refine Passes.bind ?_ fun w' hw' => returns_ok hw'
    split_ifs
    · exact continueFilter_passes hdata
    · exact ⟨_, rfl, hdata⟩
  · exact returns_ok h

theorem relay_returns {stay : States} {drained : World → States × World}
    (hdrained : ∀ w, (drained w).2.heap = w.heap) (h : DataWf (w.heap key.data) .response) :
    Returns key.data .response (relay stay drained io key w) := by
  obtain ⟨⟨p, m⟩, hpm⟩ := Origin.asResponse_ok h.kind
  unfold relay
  have hwf : Buffer.Wf (if (w.heap key.data).transform = true then (w.heap key.data).transBuffer
      else (w.heap key.data).writeBuffer) := by
    split_ifs
    · exact h.transBuffer
    · exact h.writeBuffer
  refine returns_bind hpm (returns_bind (Buffer.bufferReadPtr_ok hwf) ?_)
  split
  · rename_i sent hsent
    obtain ⟨b, hb, hwfb, -⟩ := Buffer.bufferReadAdv_ok hwf (length_taken hsent)
    refine returns_bind hb ?_
    have hdata : DataWf (((w.emit (.sent key.fd sent)).modify key.data fun c =>
        if c.transform = true then
          { c with
            transBuffer := b
            origin := .response (pop3SinglelineResponseBuilder sent p none).state.1 m }
        else
          { c with
            writeBuffer := b
            origin := .response (pop3SinglelineResponseBuilder sent p none).state.1 m }).heap
              key.data) .response := by
      rw [World.heap_modify, World.heap_emit]
      split_ifs
      · exact ⟨h.readBuffer, h.writeBuffer, hwfb, rfl⟩
      · exact ⟨h.readBuffer, hwfb, h.transBuffer, rfl⟩
    simp only
    split_ifs
    · exact returns_ok hdata
    · exact returns_ok (by rw [hdrained]; exact hdata)
  · exact returns_ok h

/-! ## Entering a state -/

/-- The variant the data has after a state was entered. -/
def States.arrivalKind (s : States) (k : OriginKind) : OriginKind :=
  match s with
  | .processConnection => .connecting
  | .greetingSread => .greeting
  | .responseSread => .response
  | _ => k

/-- **Entering** a state: two of the hooks look at the variant that is there. -/
theorem arrival_passes {s : States} (h : DataWf (w.heap key.data) k)
    (hestabl : s = .establConnection → k = .connecting)
    (hdot : s = .dotDataSread → k = .response) :
    Passes key.data (s.arrivalKind k) (arrival key s w) := by
  cases s with
  | processConnection =>
    refine ⟨_, rfl, ?_⟩
    rw [World.heap_modify]
    exact ⟨h.readBuffer, h.writeBuffer, h.transBuffer, rfl⟩
  | establConnection =>
    rw [hestabl rfl] at h
    obtain ⟨server, hserver⟩ := Origin.asConnecting_ok h.kind
    refine ⟨w, ?_, ?_⟩
    · show ((w.heap key.data).origin.asConnecting >>= fun _ => .ok w) = .ok w
      rw [hserver]
      rfl
    · rw [hestabl rfl]
      exact h
  | greetingSread =>
    refine ⟨_, rfl, ?_⟩
    rw [World.heap_modify]
    exact ⟨h.readBuffer, ⟨Nat.zero_le _, Nat.le_refl _, Nat.le_refl _⟩, h.transBuffer, rfl⟩
  | commandCread =>
    refine ⟨_, rfl, ?_⟩
    rw [World.heap_modify]
    exact ⟨Buffer.wf_reset _, Buffer.wf_reset _, h.transBuffer, h.kind⟩
  | responseSread =>
    refine ⟨_, rfl, ?_⟩
    rw [World.heap_modify]
    exact ⟨h.readBuffer, Buffer.wf_reset _, Buffer.wf_reset _, rfl⟩
  | dotDataSread =>
    rw [hdot rfl] at h
    obtain ⟨pm, hpm⟩ := Origin.asResponse_ok h.kind
    refine ⟨w.modify key.data fun c => { c with
      writeBuffer := bufferReset c.writeBuffer, transBuffer := bufferReset c.transBuffer }, ?_, ?_⟩
    · show ((w.heap key.data).origin.asResponse >>= fun _ => _) = _
      rw [hpm]
      rfl
    · rw [World.heap_modify, hdot rfl]
      exact ⟨h.readBuffer, Buffer.wf_reset _, Buffer.wf_reset _, h.kind⟩
  | pipeDream =>
    refine ⟨_, rfl, ?_⟩
    rw [World.heap_modify]
    exact ⟨h.readBuffer, h.writeBuffer, h.transBuffer, h.kind⟩
  | resolvConnection | greetingCwrite | commandSwrite | dotDataCwrite | responseCwrite | update
    | error => exact ⟨w, rfl, h⟩

end

end Pop3Proxy
