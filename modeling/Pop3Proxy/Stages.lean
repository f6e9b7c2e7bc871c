/-
# What the handlers achieve in a linked connection

The data a connection holds in each stage of the dialogue, and for each of the
eight handlers the state, the struct and the output it gives on such data.
-/
import Pop3Proxy.Dialogue
import Pop3Proxy.Linked

namespace Pop3Proxy

/-! ## The data of a stage -/

/-- The octets `bs` are in the buffer, and none was taken from it. -/
structure Buffer.Filled (b : Buffer) (n : ℕ) (bs : List Byte) : Prop where
  wf : b.Wf
  limit : b.limit = n
  read : b.read = 0
  contents : b.contents = bs

/-- The octets `bs` are still to be taken from the buffer. -/
structure Buffer.Left (b : Buffer) (bs : List Byte) : Prop where
  wf : b.Wf
  contents : b.contents = bs

namespace Buffer

variable {b : Buffer} {n : ℕ} {bs : List Byte}

/-- What is in the buffer can be taken from it. -/
theorem Filled.left (h : b.Filled n bs) : b.Left bs := ⟨h.wf, h.contents⟩

/-- The write pointer is behind what is in the buffer. -/
theorem Filled.write (h : b.Filled n bs) : b.write = bs.length := by
  have hlen := length_contents h.wf
  rw [h.contents, h.read] at hlen
  omega

/-- The rest of the buffer is free. -/
theorem Filled.room (h : b.Filled n bs) : b.room = n - bs.length := by
  rw [Buffer.room, h.limit, h.write]

/-- A buffer that was reset has nothing in it. -/
theorem filled_reset (b : Buffer) : (bufferReset b).Filled b.limit [] :=
  ⟨wf_reset b, rfl, rfl, contents_reset b⟩

/-- The octets announced of a chunk join the others. -/
theorem Filled.pushPart (h : b.Filled n bs) {chunk : List Byte} (hfit : chunk.length ≤ b.room)
    {k : ℕ} (hk : k ≤ chunk.length) : (b.pushPart chunk k).Filled n (bs ++ chunk.take k) where
  wf := wf_pushPart h.wf hfit hk
  limit := h.limit
  read := h.read
  contents := by rw [contents_pushPart h.wf hk, h.contents]

/-- What fits is added. -/
theorem Filled.push (h : b.Filled n bs) {chunk : List Byte} (hfit : chunk.length ≤ b.room) :
    (b.push chunk).Filled n (bs ++ chunk) where
  wf := wf_push h.wf hfit
  limit := h.limit
  read := h.read
  contents := by rw [contents_push h.wf, h.contents]

/-- There is something to take unless nothing is left. -/
theorem Left.canRead (h : b.Left bs) : bufferCanRead b = !bs.isEmpty := by
  rw [bufferCanRead_eq h.wf, h.contents]

/-- What is left when as much as fits was taken. -/
theorem drop_length_take (bs : List Byte) (n : ℕ) : bs.drop (bs.take n).length = bs.drop n := by
  rw [List.length_take]
  rcases Nat.le_total n bs.length with hn | hn
  · rw [Nat.min_eq_left hn]
  · rw [Nat.min_eq_right hn, List.drop_of_length_le hn, List.drop_length]

/-- Releasing what `send` took of the octets. -/
theorem Left.readAdv (h : b.Left bs) (n : ℕ) :
    ∃ b', bufferReadAdv b (bs.take n).length = .ok b' ∧ b'.Left (bs.drop n) ∧
      b'.limit = b.limit := by
  have hlen : (bs.take n).length ≤ b.contents.length := by
    rw [h.contents, List.length_take]
    exact Nat.min_le_right _ _
  obtain ⟨b', hadv, hwf, hcont, hlimit⟩ := bufferReadAdv_ok h.wf hlen
  refine ⟨b', hadv, ⟨hwf, ?_⟩, hlimit⟩
  rw [hcont, h.contents, drop_length_take]

/-- The read pointer moves without compaction. -/
theorem Left.readOn (h : b.Left bs) (n : ℕ) :
    ({ b with read := b.read + (bs.take n).length } : Buffer).Left (bs.drop n) := by
  have hlen := length_contents h.wf
  have h1 := h.wf.read_le_write
  rw [h.contents] at hlen
  have hk : (bs.take n).length ≤ bs.length := by
    rw [List.length_take]
    exact Nat.min_le_right _ _
  refine ⟨⟨?_, h.wf.write_le_data, h.wf.write_le_limit⟩, ?_⟩
  · show b.read + (bs.take n).length ≤ b.write
    omega
  · rw [← drop_length_take, ← h.contents]
    simp only [Buffer.contents, List.drop_take, List.drop_drop]
    congr 1
    omega

end Buffer

/-- The buffer the client is sent from. -/
def Pop3.relayBuffer (c : Pop3) : Buffer := if c.transform then c.transBuffer else c.writeBuffer

namespace Stage

/-- The state of the connection in a stage. -/
def state : Stage → States
  | greeting => .greetingSread
  | welcome _ => .greetingCwrite
  | command _ _ _ => .commandCread
  | forward _ _ => .commandSwrite
  | status _ => .responseSread
  | relay true _ => .responseCwrite
  | relay false _ => .dotDataCwrite
  | body => .dotDataSread
  | closed => .error

/-- What the struct holds in a stage. -/
def Holds (c : Pop3) : Stage → Prop
  | greeting => c.readBuffer.Filled rawBuffA [] ∧ c.writeBuffer.Left greetingOk ∧
      c.origin = .greeting pop3SinglelineResponseDefinition.startState
  | welcome rest => c.writeBuffer.Left rest ∧ c.origin.kind = .greeting
  | command p cmd bs => c.readBuffer.Filled rawBuffA bs ∧ c.commandParser = p ∧
      c.currentCommand = cmd
  | forward cmd rest => c.readBuffer.Left rest ∧ c.currentCommand = cmd
  | status cmd => c.writeBuffer.Filled rawBuffB [] ∧ c.transBuffer.Filled rawBuffTrans [] ∧
      c.origin = .response pop3SinglelineResponseDefinition.startState
        pop3MultilineResponseDefinition.startState ∧ c.currentCommand = cmd
  | relay _ rest => c.relayBuffer.Left rest ∧ c.writeBuffer.limit = rawBuffB ∧
      c.transBuffer.limit = rawBuffTrans ∧ c.origin.kind = .response
  | body => c.writeBuffer.Filled rawBuffB [] ∧ c.transBuffer.Filled rawBuffTrans [] ∧
      c.origin.kind = .response
  | closed => True

end Stage

/-! ## The handlers, one by one -/

section
variable {io : Io} {key : SelectorKey} {a : Addr} {s next : States} {l : Wires} {w : World}
variable {seg : List Byte}

/-- A handler that arms one descriptor. -/
theorem gives_armed {c : Pop3} {fd : Int} (hc : w.heap a = c) (h : (w.sel.item fd).isSome)
    (i : FdInterest) (next : States) : Gives a (.ok (w.armed fd i next)) next c w.output := by
  obtain ⟨it, hit⟩ := Option.isSome_iff_exists.mp h
  refine ⟨(w.armed fd i next).2, ?_, hc, rfl⟩
  simp only [World.armed, setInterest_success hit, if_pos]

/-- A handler that gives the turn to another descriptor. -/
theorem gives_handOver {c : Pop3} {off on : Int} (hc : w.heap a = c) (h : (w.sel.item on).isSome)
    (i : FdInterest) (next : States) :
    Gives a (.ok (w.handOver off on i next)) next c w.output := by
  refine gives_armed (w := (w.setInterest off OP_NOOP).2) hc ?_ i next
  show ((selectorSetInterest w.sel off OP_NOOP).2.item on).isSome
  rw [FdSelector.item_setInterest]
  split_ifs with heq
  · rw [Option.isSome_map, ← heq]
    exact h
  · exact h

/-- A handler that waits for the client. -/
theorem gives_toClient {c : Pop3} (hc : w.heap a = c) (h : (w.sel.item c.clientFd).isSome)
    (next : States) : Gives a (.ok (w.toClient a next)) next c w.output :=
  gives_handOver hc (by rw [hc]; exact h) OP_WRITE next

/-- A handler that waits for the origin. -/
theorem gives_toOrigin {c : Pop3} (hc : w.heap a = c) (h : (w.sel.item c.originFd).isSome)
    (i : FdInterest) (next : States) : Gives a (.ok (w.toOrigin a i next)) next c w.output :=
  gives_handOver hc (by rw [hc]; exact h) i next

/-- The first chunk of the origin. -/
theorem greetingSread_gives (key : SelectorKey) (h : Linked key.data s l w)
    (hb : (w.heap key.data).readBuffer.Filled rawBuffA [])
    (ho : (w.heap key.data).origin = .greeting pop3SinglelineResponseDefinition.startState)
    (hrecv : io.recv = some seg) {b : Byte} {bs : List Byte}
    (hchunk : seg.take rawBuffA = b :: bs) :
    Gives key.data (greetingSread io key w)
      (if hasStatusLine (b :: bs) then .greetingCwrite else .error)
      { w.heap key.data with
        readBuffer := (w.heap key.data).readBuffer.push (b :: bs)
        origin := .greeting (pop3SinglelineResponseBuilder (b :: bs)
          pop3SinglelineResponseDefinition.startState none).state.1 } w.output := by
  have hup : upTo io.recv ((w.heap key.data).readBuffer.limit - (w.heap key.data).readBuffer.write)
      = some (b :: bs) := by
    rw [hrecv, upTo, Option.map_some, ← hchunk]
    exact congrArg some (congrArg (seg.take ·) hb.room)
  unfold greetingSread
  rw [ho]
  simp only [Origin.asGreeting, ok_bind, Buffer.bufferWritePtr_ok hb.wf, hup,
    Buffer.bufferWriteAdv_store hb.wf (length_upTo hup)]
  unfold hasStatusLine
  by_cases hfin : builderResult (pop3SinglelineResponseBuilder (b :: bs)
      pop3SinglelineResponseDefinition.startState none) = .buildFinished
  · rw [if_pos hfin, if_pos (by simpa using hfin)]
    refine gives_toClient (World.heap_modify _ _ _) ?_ .greetingCwrite
    exact h.items.1
  · rw [if_neg hfin, if_neg (by simpa using hfin)]
    exact ⟨_, rfl, by simp, rfl⟩

/-- The welcome is sent from the write buffer. -/
theorem greetingCwrite_gives (key : SelectorKey) (h : Linked key.data s l w) {rest : List Byte}
    (hb : (w.heap key.data).writeBuffer.Left rest) (ho : (w.heap key.data).origin.kind = .greeting)
    {n : ℕ} (hsend : io.send = some n) (hfd : key.fd = (w.heap key.data).clientFd) :
    ∃ b : Buffer, b.Left (rest.drop n) ∧
      Gives key.data (greetingCwrite io key w)
        (if rest.drop n = [] then .commandCread else .greetingCwrite)
        { w.heap key.data with writeBuffer := b } (w.output ++ [.sent key.fd (rest.take n)]) := by
  obtain ⟨p, hp⟩ := Origin.asGreeting_ok ho
  obtain ⟨b, hadv, hleft, -⟩ := hb.readAdv n
  refine ⟨b, hleft, ?_⟩
  unfold greetingCwrite
  simp only [hp, ok_bind, Buffer.bufferReadPtr_ok hb.wf, hb.contents, hsend, taken,
    Option.map_some, hadv, hleft.canRead]
  by_cases hdone : rest.drop n = []
  · rw [if_pos hdone, if_neg (by simp [hdone])]
    refine gives_armed (World.heap_modify _ _ _) ?_ OP_READ .commandCread
    rw [hfd]
    exact h.items.1
  · rw [if_neg hdone, if_pos (by simpa using hdone)]
    exact ⟨_, rfl, World.heap_modify _ _ _, rfl⟩

/-- The state after a chunk of a command. -/
def commandNext (o : Scan.Outcome (CommandState × Pop3CommandBuilder) StructureBuilderStates) :
    States :=
  match builderResult o with
  | .buildFinished => .commandSwrite
  | .building => .commandCread
  | .buildFailed => .error

/-- A chunk of a command; what follows the command in it is not announced. -/
theorem commandCread_gives (key : SelectorKey) (h : Linked key.data s l w) {held : List Byte}
    (hb : (w.heap key.data).readBuffer.Filled rawBuffA held) (hrecv : io.recv = some seg)
    {b : Byte} {bs : List Byte} (hchunk : seg.take (rawBuffA - held.length) = b :: bs)
    (hfd : key.fd = (w.heap key.data).clientFd) :
    ∃ c : Pop3, Gives key.data (commandCread io key w)
        (commandNext (commandBuilder (b :: bs) (w.heap key.data).commandParser
          (w.heap key.data).currentCommand)) c w.output ∧
      c = { w.heap key.data with
        readBuffer := (w.heap key.data).readBuffer.pushPart (b :: bs)
          (commandBuilder (b :: bs) (w.heap key.data).commandParser
            (w.heap key.data).currentCommand).read
        commandParser := (commandBuilder (b :: bs) (w.heap key.data).commandParser
            (w.heap key.data).currentCommand).state.1
        currentCommand := (commandBuilder (b :: bs) (w.heap key.data).commandParser
            (w.heap key.data).currentCommand).state.2
        currentCommandLen := c.currentCommandLen
        bytesRead := c.bytesRead
        pipelined := c.pipelined
        bytesInBuffer := c.bytesInBuffer } := by
  have hup : upTo io.recv ((w.heap key.data).readBuffer.limit - (w.heap key.data).readBuffer.write)
      = some (b :: bs) := by
    rw [hrecv, upTo, Option.map_some, ← hchunk]
    exact congrArg some (congrArg (seg.take ·) hb.room)
  have hfit := length_upTo hup
  unfold commandCread
  generalize ho : commandBuilder (b :: bs) (w.heap key.data).commandParser
    (w.heap key.data).currentCommand = o
  have hread : o.read ≤ (b :: bs).length := by
    rw [← ho]
    exact Scan.scan_read_le _ _ _
  simp only [Buffer.bufferWritePtr_ok hb.wf, ok_bind, hup,
    Buffer.bufferWriteAdv_store hb.wf hfit, ho, Buffer.bufferWriteAdv_rewind hb.wf hfit hread]
  unfold commandNext
  cases builderResult o with
  | buildFinished =>
    refine ⟨_, gives_toOrigin (World.heap_modify _ _ _) ?_ OP_WRITE .commandSwrite, ?_⟩
    · rw [World.heap_modify]
      split_ifs <;> exact h.items.2
    · rw [World.heap_modify]
      split_ifs <;> rfl
  | building =>
    refine ⟨_, gives_armed (World.heap_modify _ _ _) ?_ OP_READ .commandCread, rfl⟩
    rw [hfd]
    exact h.items.1
  | buildFailed => exact ⟨_, ⟨_, rfl, World.heap_modify _ _ _, rfl⟩, rfl⟩

/-- There is no room for more of the command. -/
theorem commandCread_full {held : List Byte}
    (hb : (w.heap key.data).readBuffer.Filled rawBuffA held) (hrecv : io.recv = some seg)
    (hchunk : seg.take (rawBuffA - held.length) = []) :
    Gives key.data (commandCread io key w) .error (w.heap key.data) w.output := by
  have hup : upTo io.recv ((w.heap key.data).readBuffer.limit - (w.heap key.data).readBuffer.write)
      = some [] := by
    rw [hrecv, upTo, Option.map_some, ← hchunk]
    exact congrArg some (congrArg (seg.take ·) hb.room)
  unfold commandCread
  simp only [Buffer.bufferWritePtr_ok hb.wf, ok_bind, hup]
  exact ⟨w, rfl, rfl, rfl⟩

/-- A command is sent from the read buffer. -/
theorem commandSwrite_gives (key : SelectorKey) (h : Linked key.data s l w) {rest : List Byte}
    (hb : (w.heap key.data).readBuffer.Left rest) {n : ℕ} (hsend : io.send = some n)
    (hfd : key.fd = (w.heap key.data).originFd) :
    ∃ b : Buffer, b.Left (rest.drop n) ∧ b.limit = (w.heap key.data).readBuffer.limit ∧
      Gives key.data (commandSwrite io key w)
        (if rest.drop n = [] then .responseSread else .commandSwrite)
        { w.heap key.data with readBuffer := b } (w.output ++ [.sent key.fd (rest.take n)]) := by
  have hleft := hb.readOn n
  refine ⟨_, hleft, rfl, ?_⟩
  unfold commandSwrite
  simp only [Buffer.bufferReadPtr_ok hb.wf, ok_bind, hb.contents, hsend, taken, Option.map_some,
    hleft.canRead]
  by_cases hdone : rest.drop n = []
  · rw [if_pos hdone, if_neg (by simp [hdone])]
    refine gives_armed (World.heap_modify _ _ _) ?_ OP_READ .responseSread
    rw [hfd]
    exact h.items.2
  · rw [if_neg hdone, if_pos (by simpa using hdone)]
    exact ⟨_, rfl, World.heap_modify _ _ _, rfl⟩

/-! ### The filter -/

/-- The pipe to the filter that a struct has, or one that is made. -/
def Pop3.hasPipe (c : Pop3) (io : Io) (fd : Int) : Bool :=
  fd = c.senderPipe.2 || io.senderPipe.any fun p => fd = p.2

/-- The chunk went to the filter, and something was read from it. -/
structure Filtered (io : Io) (a : Addr) (chunk : List Byte) (w w' : World) : Prop where
  heap : ∃ p q tb, w'.heap a =
    { w.heap a with senderPipe := p, receiverPipe := q, transBuffer := tb } ∧
      tb.Filled rawBuffTrans (fromFilter io)
  output : ∃ fd, w'.output = w.output ++ [.wrote fd chunk] ∧ (w.heap a).hasPipe io fd = true
  sel : w'.sel = w.sel

/-- What was read is in the buffer, as far as it has room. -/
theorem announceRead_filled {tb : Buffer} {n : ℕ} (h : tb.Filled n [])
    (found : Option (List Byte)) :
    ∃ tb', announceRead tb (upTo found (tb.limit - tb.write)) = .ok tb' ∧
      tb'.Filled n ((found.map (·.take n)).getD []) := by
  have hroom : tb.limit - tb.write = n := h.room
  cases found with
  | none => exact ⟨tb, rfl, h⟩
  | some bs =>
    have hfit : (bs.take n).length ≤ tb.room := by
      rw [h.room, List.length_take]
      exact Nat.min_le_left _ _
    refine ⟨tb.push (bs.take n), ?_, h.push hfit⟩
    rw [hroom]
    exact Buffer.bufferWriteAdv_store h.wf hfit

/-- A filter that is started is nothing to the selector. -/
theorem sel_createTransformation (io : Io) (a : Addr) (w : World) :
    (createTransformation io a w).sel = w.sel := by
  unfold createTransformation
  split
  · rfl
  · simp only
    split <;> rfl

/-- Nor is it to the peers. -/
theorem output_createTransformation (io : Io) (a : Addr) (w : World) :
    (createTransformation io a w).output = w.output := by
  unfold createTransformation
  split
  · rfl
  · simp only
    split <;> rfl

/-- The output of the filter has a pipe. -/
theorem hasPipe_createTransformation (io : Io) (a : Addr) (w : World) :
    (w.heap a).hasPipe io ((createTransformation io a w).heap a).senderPipe.2 = true := by
  unfold createTransformation
  cases hp : w.freshPair io.senderPipe with
  | none => simp [Pop3.hasPipe]
  | some p =>
    have hmade : io.senderPipe = some p := (Option.filter_eq_some_iff.mp hp).1
    simp only
    split <;> simp [Pop3.hasPipe, hmade]

/-- The whole chunk goes to the filter. -/
theorem feedFilter_eq {chunk : List Byte} (hw : (w.heap a).writeBuffer.Left chunk) :
    feedFilter a w = .ok (w.emit (.wrote (w.heap a).senderPipe.2 chunk)) := by
  unfold feedFilter
  rw [Buffer.bufferReadPtr_ok hw.wf, hw.contents]
  rfl

/-- One read takes from it what fits. -/
theorem readFilter_eq (io : Io) (ht : (w.heap a).transBuffer.Filled rawBuffTrans []) :
    ∃ tb, readFilter io a w = .ok (w.modify a fun c => { c with transBuffer := tb }) ∧
      tb.Filled rawBuffTrans (fromFilter io) := by
  obtain ⟨tb, htb, hfilled⟩ := announceRead_filled ht io.pipeRead
  refine ⟨tb, ?_, hfilled⟩
  simp only [readFilter]
  rw [Buffer.bufferWritePtr_ok ht.wf, ok_bind, htb, ok_bind]

/-- The first chunk goes to a new filter. -/
theorem startFilter_filtered (io : Io) {chunk : List Byte}
    (hw : (w.heap a).writeBuffer.Left chunk) (ht : (w.heap a).transBuffer.Filled rawBuffTrans []) :
    ∃ w', startFilter io a w = .ok w' ∧ Filtered io a chunk w w' := by
  obtain ⟨p, q, hc⟩ := heap_createTransformation io a w
  have hsel := sel_createTransformation io a w
  have hout := output_createTransformation io a w
  have hpipe := hasPipe_createTransformation io a w
  generalize hw₁ : createTransformation io a w = w₁ at hc hsel hout hpipe
  have hfeed : feedFilter a w₁ = .ok (w₁.emit (.wrote (w₁.heap a).senderPipe.2 chunk)) :=
    feedFilter_eq (by rw [hc]; exact hw)
  obtain ⟨tb, hread, hfilled⟩ := readFilter_eq (a := a)
    (w := w₁.emit (.wrote (w₁.heap a).senderPipe.2 chunk)) io
    (by rw [World.heap_emit, hc]; exact ht)
  refine ⟨(w₁.emit (.wrote (w₁.heap a).senderPipe.2 chunk)).modify a
    fun c => { c with transBuffer := tb }, ?_, ⟨p, q, tb, ?_, hfilled⟩,
    ⟨(w₁.heap a).senderPipe.2, ?_, hpipe⟩, hsel⟩
  · rw [startFilter, hw₁, hfeed, ok_bind, hread]
  · rw [World.heap_modify, World.heap_emit, hc]
  · exact congrArg (· ++ [Output.wrote (w₁.heap a).senderPipe.2 chunk]) hout

/-- A later chunk goes to the filter that is running. -/
theorem continueFilter_filtered (io : Io) {chunk : List Byte}
    (hw : (w.heap a).writeBuffer.Left chunk) (ht : (w.heap a).transBuffer.limit = rawBuffTrans) :
    ∃ w', continueFilter io a w = .ok w' ∧ Filtered io a chunk w w' := by
  generalize hw₁ : (w.emit (.wrote (w.heap a).senderPipe.2 chunk)).modify a
    (fun c => { c with transBuffer := bufferReset c.transBuffer }) = w₁
  have hc : w₁.heap a = { w.heap a with transBuffer := bufferReset (w.heap a).transBuffer } := by
    rw [← hw₁, World.heap_modify, World.heap_emit]
  have hempty : (w₁.heap a).transBuffer.Filled rawBuffTrans [] := by
    rw [hc, ← ht]
    exact Buffer.filled_reset _
  obtain ⟨tb, hread, hfilled⟩ := readFilter_eq io hempty
  refine ⟨w₁.modify a fun c => { c with transBuffer := tb }, ?_,
    ⟨(w.heap a).senderPipe, (w.heap a).receiverPipe, tb, ?_, hfilled⟩,
    ⟨(w.heap a).senderPipe.2, ?_, by simp [Pop3.hasPipe]⟩, ?_⟩
  · rw [continueFilter, feedFilter_eq hw, ok_bind, hw₁, hread]
  · rw [World.heap_modify, hc]
  · rw [← hw₁]
    rfl
  · rw [← hw₁]
    rfl

/-! ### The reply -/

/-- What a reply handler leaves of the struct, and what it sent to the filter. -/
structure Replied (c : Pop3) (rest : List Byte) (t : Bool) (out : List Output) (piped : List Byte)
    (c' : Pop3) (out' : List Output) : Prop where
  clientFd : c'.clientFd = c.clientFd
  originFd : c'.originFd = c.originFd
  readBuffer : c'.readBuffer = c.readBuffer
  transform : c'.transform = t
  left : c'.relayBuffer.Left rest
  writeLimit : c'.writeBuffer.limit = rawBuffB
  transLimit : c'.transBuffer.limit = rawBuffTrans
  kind : c'.origin.kind = .response
  output : out' = out ∧ piped = [] ∨ ∃ fd, out' = out ++ [.wrote fd piped]

/-- The struct after the first chunk was parsed. -/
def Pop3.parsed (c : Pop3) (chunk : List Byte) : Pop3 :=
  { c with
    writeBuffer := c.writeBuffer.push chunk
    origin := .response
      (pop3SinglelineResponseBuilder chunk pop3SinglelineResponseDefinition.startState none).state.1
      pop3MultilineResponseDefinition.startState }

/-- What is done with a chunk that starts a reply. -/
theorem responseSread_eq (key : SelectorKey) {cmd : Pop3CommandBuilder}
    (hst : (Stage.status cmd).Holds (w.heap key.data)) (hrecv : io.recv = some seg) {b : Byte}
    {bs : List Byte} (hchunk : seg.take rawBuffB = b :: bs) :
    responseSread io key w =
      if hasStatusLine (b :: bs) then
        if cmd.expectsBody then
          responseMultiline io key (b :: bs)
            (pop3SinglelineResponseBuilder (b :: bs) pop3SinglelineResponseDefinition.startState
              none).state.1 pop3MultilineResponseDefinition.startState
            (w.modify key.data fun c => c.parsed (b :: bs))
        else .ok ((w.modify key.data fun c => c.parsed (b :: bs)).toClient key.data .responseCwrite)
      else .ok (.error, w.modify key.data fun c => c.parsed (b :: bs)) := by
  obtain ⟨hwrite, -, horigin, hcmd⟩ := hst
  have hup : upTo io.recv ((w.heap key.data).writeBuffer.limit -
      (w.heap key.data).writeBuffer.write) = some (b :: bs) := by
    rw [hrecv, upTo, Option.map_some, ← hchunk]
    exact congrArg some (congrArg (seg.take ·) hwrite.room)
  unfold responseSread
  simp only [horigin, hcmd, Origin.asResponse, ok_bind, Buffer.bufferWritePtr_ok hwrite.wf, hup,
    Buffer.bufferWriteAdv_store hwrite.wf (length_upTo hup)]
  unfold hasStatusLine Pop3CommandBuilder.expectsBody
  by_cases hfin : builderResult (pop3SinglelineResponseBuilder (b :: bs)
      pop3SinglelineResponseDefinition.startState none) = .buildFinished
  · rw [if_pos hfin, if_pos (by simpa using hfin)]
    cases getCommandType cmd.kwrd <;> cases cmd.hasArgs <;> rfl
  · rw [if_neg hfin, if_neg (by simpa using hfin)]
    rfl

/-- What the filter leaves of a reply. -/
theorem Filtered.replied {chunk : List Byte} {w₁ w₂ : World} {c : Pop3}
    (h : Filtered io a chunk w₁ w₂) (hclient : (w₁.heap a).clientFd = c.clientFd)
    (horigin : (w₁.heap a).originFd = c.originFd)
    (hread : (w₁.heap a).readBuffer = c.readBuffer) (ht : (w₁.heap a).transform = true)
    (hlimit : (w₁.heap a).writeBuffer.limit = rawBuffB)
    (hkind : (w₁.heap a).origin.kind = .response) :
    Replied c (fromFilter io) true w₁.output chunk (w₂.heap a) w₂.output := by
  obtain ⟨p, q, tb, hheap, hfilled⟩ := h.heap
  obtain ⟨fd, hout, -⟩ := h.output
  rw [hheap]
  refine ⟨hclient, horigin, hread, ht, ?_, hlimit, hfilled.limit, hkind, .inr ⟨fd, hout⟩⟩
  rw [Pop3.relayBuffer, if_pos ht]
  exact hfilled.left

/-- **A chunk of a reply** ends it, or more is to come. -/
theorem responseMultiline_gives (key : SelectorKey) (io : Io) (chunk : List Byte)
    (p : SinglelineState) (m : MultilineState) {c : Pop3} (hc : w.heap key.data = c)
    (hw : c.writeBuffer.Filled rawBuffB chunk)
    (ht : c.transBuffer.Filled rawBuffTrans []) (hitem : (w.sel.item c.clientFd).isSome) :
    ∃ c' out', Gives key.data (responseMultiline io key chunk p m w)
        (if checkerResult (pop3MultilineResponseChecker chunk m) = .finishedConsuming then
          .responseCwrite else .dotDataCwrite) c' out' ∧
      Replied c (Dialogue.relayed (isTransformed c.currentCommand.kwrd) io chunk)
        (isTransformed c.currentCommand.kwrd) w.output
        (if isTransformed c.currentCommand.kwrd then chunk else []) c' out' := by
  subst hc
  unfold responseMultiline
  cases htr : isTransformed (w.heap key.data).currentCommand.kwrd with
  | false =>
    simp only [Bool.false_eq_true, if_false, ok_bind, Dialogue.relayed]
    refine ⟨_, _, gives_toClient (World.heap_modify _ _ _) ?_ _, ?_⟩
    · exact hitem
    · exact ⟨rfl, rfl, rfl, rfl, hw.left, hw.limit, ht.limit, rfl, .inl ⟨rfl, rfl⟩⟩
  | true =>
    simp only [if_true, Dialogue.relayed]
    generalize hw₁ : (w.modify key.data fun c => { c with
      origin := .response p (pop3MultilineResponseChecker chunk m).state
      transform := true }) = w₁
    have hheap : w₁.heap key.data = { w.heap key.data with
        origin := .response p (pop3MultilineResponseChecker chunk m).state
        transform := true } := by
      rw [← hw₁, World.heap_modify]
    obtain ⟨w₂, hstart, hfilter⟩ := startFilter_filtered (a := key.data) (w := w₁) io
      (by rw [hheap]; exact hw.left) (by rw [hheap]; exact ht)
    have hreplied : Replied (w.heap key.data) (fromFilter io) true w₁.output chunk
        (w₂.heap key.data) w₂.output := by
      refine hfilter.replied ?_ ?_ ?_ ?_ ?_ ?_ <;> rw [hheap]
      · exact hw.limit
      · rfl
    rw [hstart, ok_bind]
    refine ⟨_, _, gives_toClient rfl ?_ _, ?_⟩
    · rw [hreplied.clientFd, hfilter.sel, ← hw₁]
      exact hitem
    · rw [← hw₁] at hreplied
      exact hreplied

/-- A later chunk of a reply; nothing looks for its end. -/
theorem dotDataSread_gives (key : SelectorKey) (h : Linked key.data s l w)
    (hst : Stage.body.Holds (w.heap key.data))
    (hrecv : io.recv = some seg) {b : Byte} {bs : List Byte}
    (hchunk : seg.take rawBuffB = b :: bs) :
    ∃ c out, Gives key.data (dotDataSread io key w)
        (if io.junk = .finishedConsuming then .responseCwrite else .dotDataCwrite) c out ∧
      Replied (w.heap key.data) (Dialogue.relayed (w.heap key.data).transform io (b :: bs))
        (w.heap key.data).transform w.output
        (if (w.heap key.data).transform then b :: bs else []) c out := by
  obtain ⟨hwrite, htrans, hkind⟩ := hst
  obtain ⟨pm, hpm⟩ := Origin.asResponse_ok hkind
  have hup : upTo io.recv ((w.heap key.data).writeBuffer.limit -
      (w.heap key.data).writeBuffer.write) = some (b :: bs) := by
    rw [hrecv, upTo, Option.map_some, ← hchunk]
    exact congrArg some (congrArg (seg.take ·) hwrite.room)
  have hfit := length_upTo hup
  have hpush : ((w.heap key.data).writeBuffer.push (b :: bs)).Filled rawBuffB (b :: bs) :=
    hwrite.push hfit
  unfold dotDataSread
  simp only [hpm, ok_bind, Buffer.bufferWritePtr_ok hwrite.wf, hup,
    Buffer.bufferWriteAdv_store hwrite.wf hfit]
  generalize hw₁ : (w.modify key.data fun c => { c with
    writeBuffer := (w.heap key.data).writeBuffer.push (b :: bs) }) = w₁
  have hheap : w₁.heap key.data = { w.heap key.data with
      writeBuffer := (w.heap key.data).writeBuffer.push (b :: bs) } := by
    rw [← hw₁, World.heap_modify]
  have hout : w₁.output = w.output := by rw [← hw₁]; rfl
  have hitem : (w₁.sel.item (w.heap key.data).clientFd).isSome := by
    rw [← hw₁]
    exact h.items.1
  cases htr : (w.heap key.data).transform with
  | false =>
    simp only [Bool.false_eq_true, if_false, ok_bind, Dialogue.relayed]
    refine ⟨_, _, gives_toClient hheap hitem _, ?_⟩
    refine ⟨rfl, rfl, rfl, htr, ?_, hpush.limit, htrans.limit, hkind, .inl ⟨hout, rfl⟩⟩
    rw [Pop3.relayBuffer, if_neg (by simp [htr])]
    exact hpush.left
  | true =>
    simp only [if_true, Dialogue.relayed]
    obtain ⟨w₂, hcontinue, hfilter⟩ := continueFilter_filtered (a := key.data) (w := w₁) io
      (by rw [hheap]; exact hpush.left) (by rw [hheap]; exact htrans.limit)
    have hreplied : Replied (w.heap key.data) (fromFilter io) true w₁.output (b :: bs)
        (w₂.heap key.data) w₂.output := by
      refine hfilter.replied ?_ ?_ ?_ ?_ ?_ ?_ <;> rw [hheap]
      · exact htr
      · exact hpush.limit
      · exact hkind
    rw [hcontinue, ok_bind]
    refine ⟨_, _, gives_toClient rfl ?_ _, ?_⟩
    · rw [hreplied.clientFd, hfilter.sel]
      exact hitem
    · rw [hout] at hreplied
      exact hreplied

/-- The struct after a part of the chunk was sent. -/
def Pop3.relayedFrom (c : Pop3) (b : Buffer) (o : Origin) : Pop3 :=
  if c.transform then { c with transBuffer := b, origin := o }
  else { c with writeBuffer := b, origin := o }

/-- What is left of the chunk is still to be relayed. -/
theorem relayedFrom_holds {c : Pop3} {last : Bool} {rest rest' : List Byte} {b : Buffer}
    {o : Origin} (h : (Stage.relay last rest).Holds c) (hb : b.Left rest')
    (hlimit : b.limit = c.relayBuffer.limit) (ho : o.kind = .response) :
    (Stage.relay last rest').Holds (c.relayedFrom b o) := by
  obtain ⟨-, hwl, htl, -⟩ := h
  unfold Pop3.relayBuffer at hlimit
  unfold Pop3.relayedFrom
  split_ifs at hlimit ⊢ with ht
  · refine ⟨?_, hwl, hlimit.trans htl, ho⟩
    rw [Pop3.relayBuffer, if_pos ht]
    exact hb
  · refine ⟨?_, hlimit.trans hwl, htl, ho⟩
    rw [Pop3.relayBuffer, if_neg ht]
    exact hb

/-- The client is sent a part of the chunk. -/
theorem relay_gives (key : SelectorKey) (stay drained : States) (drain : World → States × World)
    {last : Bool} {rest : List Byte} (hst : (Stage.relay last rest).Holds (w.heap key.data)) {n : ℕ}
    (hsend : io.send = some n)
    (hdrain : ∀ {w₁ : World} {c : Pop3}, w₁.heap key.data = c → w₁.sel = w.sel →
      c.clientFd = (w.heap key.data).clientFd → c.originFd = (w.heap key.data).originFd →
      Gives key.data (.ok (drain w₁)) drained c w₁.output) :
    ∃ c, Gives key.data (relay stay drain io key w) (if rest.drop n = [] then drained else stay) c
        (w.output ++ [.sent key.fd (rest.take n)]) ∧
      c.clientFd = (w.heap key.data).clientFd ∧ c.originFd = (w.heap key.data).originFd ∧
      c.readBuffer = (w.heap key.data).readBuffer ∧ c.transform = (w.heap key.data).transform ∧
      (Stage.relay last (rest.drop n)).Holds c := by
  obtain ⟨pm, hpm⟩ := Origin.asResponse_ok hst.2.2.2
  have hleft := hst.1
  obtain ⟨b, hadv, hb, hlimit⟩ := hleft.readAdv n
  have hholds := relayedFrom_holds (o := .response
    (pop3SinglelineResponseBuilder (rest.take n) pm.1 none).state.1 pm.2) hst hb hlimit rfl
  have hsame : ∀ b o, ((w.heap key.data).relayedFrom b o).clientFd = (w.heap key.data).clientFd ∧
      ((w.heap key.data).relayedFrom b o).originFd = (w.heap key.data).originFd ∧
      ((w.heap key.data).relayedFrom b o).readBuffer = (w.heap key.data).readBuffer ∧
      ((w.heap key.data).relayedFrom b o).transform = (w.heap key.data).transform := by
    intro b o
    unfold Pop3.relayedFrom
    split_ifs <;> exact ⟨rfl, rfl, rfl, rfl⟩
  refine ⟨_, ?_, (hsame b _).1, (hsame b _).2.1, (hsame b _).2.2.1, (hsame b _).2.2.2, hholds⟩
  unfold relay
  unfold Pop3.relayBuffer at hleft hadv
  simp only [hpm, ok_bind, Buffer.bufferReadPtr_ok hleft.wf, hleft.contents, hsend, taken,
    Option.map_some, hadv, hb.canRead]
  by_cases hdone : rest.drop n = []
  · rw [if_pos hdone, if_neg (by simp [hdone])]
    exact hdrain (World.heap_modify _ _ _) rfl (hsame b _).1 (hsame b _).2.1
  · rw [if_neg hdone, if_pos (by simpa using hdone)]
    exact ⟨_, rfl, World.heap_modify _ _ _, rfl⟩

end

end Pop3Proxy
