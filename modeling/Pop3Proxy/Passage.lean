/-
# What goes through the program

In every run, whatever the peers, the system calls and the resolvers do, a connection passes on
what it has received and nothing else: what it sends to the origin it has received from the
client, what it writes to the filter it has received from the origin, and what it sends to the
client is the welcome and then what it has received from the origin and read from the filter, each
octet at most once and in the order it came.
-/
import Pop3Proxy.Alone
import Pop3Proxy.Postings
import Pop3Proxy.Stages

namespace Pop3Proxy

/-! ## What a call receives -/

/-- What is read into a buffer: what is found, as far as there is room. -/
def Buffer.got (b : Buffer) (found : Option (List Byte)) : List Byte := (upTo found b.room).getD []

namespace Pop3

/-- The state of a connection, between two events. -/
def state (c : Pop3) : States :=
  (States.all.find? fun s => c.current = some s.num).getD .processConnection

/-- What a call receives from the client. -/
def fromClient (c : Pop3) (s : States) (op : Op) (io : Io) : List Byte :=
  match s, op with
  | .commandCread, .read => c.readBuffer.got io.recv
  | _, _ => []

/-- What a call receives from the origin; its greeting is read and dropped. -/
def fromOrigin (c : Pop3) (s : States) (op : Op) (io : Io) : List Byte :=
  match s, op with
  | .responseSread, .read => c.writeBuffer.got io.recv
  | .dotDataSread, .read => c.writeBuffer.got io.recv
  | _, _ => []

/-- Does the first chunk of a reply start a filter? -/
def startsFilter (c : Pop3) (chunk : List Byte) : Bool :=
  match c.origin with
  | .response p _ => decide (chunk ≠ [] ∧
      builderResult (pop3SinglelineResponseBuilder chunk p none) = .buildFinished) &&
      c.currentCommand.expectsBody && isTransformed c.currentCommand.kwrd
  | _ => false

/-- What a call reads from the filter. -/
def fromFilter (c : Pop3) (s : States) (op : Op) (io : Io) : List Byte :=
  match s, op with
  | .responseSread, .read =>
    if c.startsFilter (c.writeBuffer.got io.recv) then Pop3Proxy.fromFilter io else []
  | .dotDataSread, .read =>
    if c.transform && !(c.writeBuffer.got io.recv).isEmpty then Pop3Proxy.fromFilter io else []
  | _, _ => []

end Pop3

/-! ## The books of a connection -/

/-- What leaves the program for a connection leaves it on its two sockets, or goes to its filter. -/
def Output.own (c : Pop3) (io : Io) : Output → Bool
  | .sent fd _ => fd = c.clientFd || fd = c.originFd
  | .wrote fd _ => c.hasPipe io fd

/-- What went in and out of a connection. -/
structure Ledger where
  fromClient : List Byte := []
  toOrigin : List Byte := []
  fromOrigin : List Byte := []
  toFilter : List Byte := []
  /-- from the origin and from the filter, in the order it came -/
  supply : List Byte := []
  toClient : List Byte := []
  /-- what left on descriptors that are not those of the connection -/
  astray : List Output := []

/-- A call, by what the struct was before it and what has left the program. -/
def Ledger.call (f : Ledger) (c : Pop3) (op : Op) (io : Io) (out : List Output) : Ledger where
  fromClient := f.fromClient ++ c.fromClient c.state op io
  toOrigin := f.toOrigin ++ sentOn c.originFd out
  fromOrigin := f.fromOrigin ++ c.fromOrigin c.state op io
  toFilter := f.toFilter ++ piped out
  supply := f.supply ++ (c.fromOrigin c.state op io ++ c.fromFilter c.state op io)
  toClient := f.toClient ++ sentOn c.clientFd out
  astray := f.astray ++ out.filter fun x => !x.own c io

/-- A posting of a connection: a new one starts new books. -/
def Ledger.post (a : Addr) (f : Ledger) : Posting → Ledger
  | .opened b => if b = a then {} else f
  | .call b c op io out => if b = a then f.call c op io out else f

/-- The books of the last connection at an address. -/
def ledgerOf (a : Addr) (t : List Posting) : Ledger := t.foldl (Ledger.post a) {}

/-! ## What a connection holds -/

namespace Pop3

/-- The octets still to be sent to the origin. -/
def heldForOrigin (c : Pop3) : States → List Byte
  | .commandCread | .commandSwrite => c.readBuffer.contents
  | _ => []

/-- The octets still to be sent to the client. -/
def heldForClient (c : Pop3) : States → List Byte
  | .processConnection | .resolvConnection | .establConnection | .greetingSread => greetingOk
  | .greetingCwrite => c.writeBuffer.contents
  | .dotDataCwrite | .responseCwrite => c.relayBuffer.contents
  | _ => []

/-- What the buffers are like when the handler of a state starts. -/
def Ready (c : Pop3) : States → Prop
  | .processConnection | .resolvConnection | .establConnection => c.writeBuffer.contents = []
  | .greetingSread => c.writeBuffer.contents = greetingOk
  | .responseSread | .dotDataSread =>
    c.writeBuffer.contents = [] ∧ c.transBuffer.Filled rawBuffTrans []
  | .dotDataCwrite | .responseCwrite => c.transBuffer.limit = rawBuffTrans
  | _ => True

/-- The same before the next state is entered, which puts some of the buffers in order. -/
def Entering (c : Pop3) (s : States) : States → Prop
  | .greetingSread => s = .greetingSread → c.Ready .greetingSread
  | .responseSread => s = .responseSread → c.Ready .responseSread
  | .dotDataSread => (s = .dotDataSread → c.Ready .dotDataSread) ∧
      c.transBuffer.limit = rawBuffTrans
  | next => c.Ready next

/-- What is left for the origin when the next state is entered: a new command starts afresh. -/
def leftForOrigin (c : Pop3) (s next : States) : List Byte :=
  if next = .commandCread ∧ s ≠ .commandCread then [] else c.heldForOrigin next

/-- The three buffers are well formed. -/
structure BuffersWf (c : Pop3) : Prop where
  readBuffer : c.readBuffer.Wf
  writeBuffer : c.writeBuffer.Wf
  transBuffer : c.transBuffer.Wf

end Pop3

/-- What a handler in the state `s` has done with the octets of the connection. -/
structure Handled (io : Io) (key : SelectorKey) (op : Op) (s next : States) (w w' : World) :
    Prop where
  wf : (w'.heap key.data).BuffersWf
  entering : (w'.heap key.data).Entering s next
  moved : ∃ out, w'.output = w.output ++ out ∧
    (∀ x ∈ out, x.own (w.heap key.data) io = true) ∧
    (sentOn (w.heap key.data).originFd out ++ (w'.heap key.data).leftForOrigin s next).Sublist
      ((w.heap key.data).heldForOrigin s ++ (w.heap key.data).fromClient s op io) ∧
    (piped out).Sublist ((w.heap key.data).fromOrigin s op io) ∧
    (sentOn (w.heap key.data).clientFd out ++ (w'.heap key.data).heldForClient next).Sublist
      ((w.heap key.data).heldForClient s ++
        ((w.heap key.data).fromOrigin s op io ++ (w.heap key.data).fromFilter s op io))

/-- Whatever a handler in the state `s` returns, it has done it like this. -/
def Booked (io : Io) (key : SelectorKey) (op : Op) (s : States) (w : World)
    (r : Except Fault (States × World)) : Prop :=
  ∀ next w', r = .ok (next, w') → Handled io key op s next w w'

section
variable {io : Io} {key : SelectorKey} {op : Op} {s next : States} {w w' w'' : World}

/-- What is computed first has done nothing yet. -/
theorem booked_bind {α : Type} {x : Except Fault α} {f : α → Except Fault (States × World)}
    (h : ∀ v, x = .ok v → Booked io key op s w (f v)) : Booked io key op s w (x >>= f) := by
  intro next w' heq
  obtain ⟨v, hv, heq⟩ := bind_eq_ok.mp heq
  exact h v hv next w' heq

/-- A handler that returns has done what it has done. -/
theorem booked_ok (h : Handled io key op s next w w') : Booked io key op s w (.ok (next, w')) := by
  intro next' w'' heq
  obtain ⟨rfl, rfl⟩ := Prod.mk.inj (Except.ok.inj heq)
  exact h

/-- What is not held for anyone goes. -/
theorem Handled.failed (h : Handled io key op s next w w')
    (hheap : w''.heap key.data = w'.heap key.data) (hout : w''.output = w'.output) :
    Handled io key op s .error w w'' := by
  obtain ⟨out, hmoved, hown, horigin, hfilter, hclient⟩ := h.moved
  refine ⟨by rw [hheap]; exact h.wf, trivial, out, hout.trans hmoved, hown, ?_, hfilter, ?_⟩
  · show (sentOn _ out ++ []).Sublist _
    rw [List.append_nil]
    exact (List.sublist_append_left _ _).trans horigin
  · show (sentOn _ out ++ []).Sublist _
    rw [List.append_nil]
    exact (List.sublist_append_left _ _).trans hclient

/-- The `if` at the end of most handlers. -/
theorem booked_armed (h : Handled io key op s next w w') (fd : Int) (i : FdInterest) :
    Booked io key op s w (.ok (w'.armed fd i next)) := by
  intro next' w'' heq
  have heq := Prod.mk.inj (Except.ok.inj heq)
  obtain ⟨hnext, rfl⟩ := heq
  split_ifs at hnext with hst
  · subst hnext
    exact ⟨h.wf, h.entering, h.moved⟩
  · subst hnext
    exact h.failed rfl rfl

/-- Giving the turn to another descriptor is nothing to the octets. -/
theorem booked_handOver (h : Handled io key op s next w w') (off on : Int) (i : FdInterest) :
    Booked io key op s w (.ok (w'.handOver off on i next)) := by
  have hoff : Handled io key op s next w (w'.setInterest off OP_NOOP).2 :=
    ⟨h.wf, h.entering, h.moved⟩
  exact booked_armed hoff on i

/-! ## The handlers -/

/-- The states before the greeting. -/
def States.Early (s : States) : Prop :=
  s = .processConnection ∨ s = .resolvConnection ∨ s = .establConnection

/-- Nothing was read or sent, and the buffers are as they were. -/
structure Idles (key : SelectorKey) (w w' : World) : Prop where
  readBuffer : (w'.heap key.data).readBuffer = (w.heap key.data).readBuffer
  writeBuffer : (w'.heap key.data).writeBuffer = (w.heap key.data).writeBuffer
  transBuffer : (w'.heap key.data).transBuffer = (w.heap key.data).transBuffer
  output : w'.output = w.output

/-- The first three handlers move no octet. -/
theorem handled_early (hs : s.Early) (hbuf : (w.heap key.data).BuffersWf)
    (hready : (w.heap key.data).Ready s) (hn : next.Early ∨ next = .greetingSread ∨
      next = .greetingCwrite ∨ next = .error) (h : Idles key w w') :
    Handled io key op s next w w' := by
  have hempty : (w'.heap key.data).writeBuffer.contents = [] := by
    rw [h.writeBuffer]
    rcases hs with rfl | rfl | rfl <;> exact hready
  have hnotCommand : next ≠ .commandCread ∧ s ≠ .greetingSread ∧
      (w'.heap key.data).heldForOrigin next = [] := by
    rcases hs with rfl | rfl | rfl <;> rcases hn with (rfl | rfl | rfl) | rfl | rfl | rfl <;>
      exact ⟨by simp, by simp, rfl⟩
  refine ⟨⟨?_, ?_, ?_⟩, ?_, [], by rw [h.output, List.append_nil], by simp, ?_,
    List.nil_sublist _, ?_⟩
  · rw [h.readBuffer]; exact hbuf.readBuffer
  · rw [h.writeBuffer]; exact hbuf.writeBuffer
  · rw [h.transBuffer]; exact hbuf.transBuffer
  · rcases hn with (rfl | rfl | rfl) | rfl | rfl | rfl
    · exact hempty
    · exact hempty
    · exact hempty
    · exact fun heq => absurd heq hnotCommand.2.1
    · trivial
    · trivial
  · rw [Pop3.leftForOrigin, if_neg (fun hboth => hnotCommand.1 hboth.1), hnotCommand.2.2]
    exact List.nil_sublist _
  · have hheld : ((w'.heap key.data).heldForClient next).Sublist greetingOk := by
      rcases hn with (rfl | rfl | rfl) | rfl | rfl | rfl
      · exact List.Sublist.refl _
      · exact List.Sublist.refl _
      · exact List.Sublist.refl _
      · exact List.Sublist.refl _
      · simp only [Pop3.heldForClient, hempty]
        exact List.nil_sublist _
      · exact List.nil_sublist _
    have hgreeting : (w.heap key.data).heldForClient s = greetingOk := by
      rcases hs with rfl | rfl | rfl <;> rfl
    rw [hgreeting]
    exact hheld.trans (List.sublist_append_left _ _)

/-- Trying to connect moves none. -/
theorem attemptConnection_idles (h : attemptConnection io key w = .ok (next, w')) :
    next = .establConnection ∧ Idles key w w' := by
  unfold attemptConnection at h
  split at h
  · obtain ⟨rfl, rfl⟩ := Prod.mk.inj (Except.ok.inj h)
    exact ⟨rfl, by simp [World.modify], by simp [World.modify], by simp [World.modify], rfl⟩
  · simp only at h
    split_ifs at h
    all_goals
      obtain ⟨rfl, rfl⟩ := Prod.mk.inj (Except.ok.inj h)
      refine ⟨rfl, ?_, ?_, ?_, rfl⟩ <;>
        simp [closeOrigin, World.modify, World.openFd, World.closeFd, World.setInterest,
          World.register]

/-- Nor does a change to other fields of the struct. -/
theorem Idles.modify {f : Pop3 → Pop3}
    (hr : (f (w.heap key.data)).readBuffer = (w.heap key.data).readBuffer)
    (hw : (f (w.heap key.data)).writeBuffer = (w.heap key.data).writeBuffer)
    (ht : (f (w.heap key.data)).transBuffer = (w.heap key.data).transBuffer)
    (h : Idles key (w.modify key.data f) w') : Idles key w w' where
  readBuffer := h.readBuffer.trans (by rw [World.heap_modify, hr])
  writeBuffer := h.writeBuffer.trans (by rw [World.heap_modify, hw])
  transBuffer := h.transBuffer.trans (by rw [World.heap_modify, ht])
  output := h.output

/-- The first handler of a connection. -/
theorem processConnection_booked (hbuf : (w.heap key.data).BuffersWf)
    (hready : (w.heap key.data).Ready .processConnection) :
    Booked io key op .processConnection w (processConnection io key w) := by
  unfold processConnection
  refine booked_bind fun server _ => ?_
  intro next w' h
  cases server with
  | ipv4 =>
    obtain ⟨rfl, hidle⟩ := attemptConnection_idles h
    exact handled_early (.inl rfl) hbuf hready (.inl (.inr (.inr rfl))) (hidle.modify rfl rfl rfl)
  | ipv6 =>
    obtain ⟨rfl, hidle⟩ := attemptConnection_idles h
    exact handled_early (.inl rfl) hbuf hready (.inl (.inr (.inr rfl))) (hidle.modify rfl rfl rfl)
  | domain =>
    simp only at h
    split_ifs at h
    all_goals obtain ⟨rfl, rfl⟩ := Prod.mk.inj (Except.ok.inj h)
    · exact handled_early (.inl rfl) hbuf hready (.inr (.inr (.inl rfl))) ⟨rfl, rfl, rfl, rfl⟩
    · exact handled_early (.inl rfl) hbuf hready (.inl (.inr (.inl rfl))) ⟨rfl, rfl, rfl, rfl⟩
    · exact handled_early (.inl rfl) hbuf hready (.inl (.inr (.inl rfl))) ⟨rfl, rfl, rfl, rfl⟩

/-- The handler that takes a resolved name. -/
theorem resolvConnection_booked (hbuf : (w.heap key.data).BuffersWf)
    (hready : (w.heap key.data).Ready .resolvConnection) :
    Booked io key op .resolvConnection w (resolvConnection io key w) := by
  unfold resolvConnection
  refine booked_bind fun _ _ => ?_
  intro next w' h
  cases hres : (w.heap key.data).originResolution with
  | none =>
    simp only [hres] at h
    obtain ⟨rfl, hidle⟩ := attemptConnection_idles h
    exact handled_early (.inr (.inl rfl)) hbuf hready (.inl (.inr (.inr rfl))) hidle
  | some family =>
    simp only [hres] at h
    obtain ⟨rfl, hidle⟩ := attemptConnection_idles h
    exact handled_early (.inr (.inl rfl)) hbuf hready (.inl (.inr (.inr rfl)))
      (hidle.modify rfl rfl rfl)

/-- The handler that turns to the greeting. -/
theorem establConnection_booked (hbuf : (w.heap key.data).BuffersWf)
    (hready : (w.heap key.data).Ready .establConnection) :
    Booked io key op .establConnection w (establConnection key w) := by
  unfold establConnection
  refine booked_bind fun _ _ => ?_
  intro next w' h
  obtain ⟨hnext, rfl⟩ := Prod.mk.inj (Except.ok.inj h)
  split_ifs at hnext
  · subst hnext
    exact handled_early (.inr (.inr rfl)) hbuf hready (.inr (.inl rfl)) ⟨rfl, rfl, rfl, rfl⟩
  · subst hnext
    exact handled_early (.inr (.inr rfl)) hbuf hready (.inr (.inr (.inr rfl))) ⟨rfl, rfl, rfl, rfl⟩

/-! ### The greeting and the command -/

/-- What is read goes into the room of the buffer. -/
theorem got_upTo {b : Buffer} (hb : b.Wf) {found : Option (List Byte)} {count : ℕ} {bs : List Byte}
    (hcount : bufferWritePtr b = .ok count) (h : upTo found count = some bs) :
    b.got found = bs ∧ bs.length ≤ b.limit - b.write := by
  rw [Buffer.bufferWritePtr_ok hb, Except.ok.injEq] at hcount
  subst hcount
  exact ⟨by rw [Buffer.got, Buffer.room, h]; rfl, length_upTo h⟩

/-- The greeting is read from the origin. -/
theorem greetingSread_booked (hbuf : (w.heap key.data).BuffersWf)
    (hready : (w.heap key.data).Ready .greetingSread) :
    Booked io key op .greetingSread w (greetingSread io key w) := by
  have hready : (w.heap key.data).writeBuffer.contents = greetingOk := hready
  -- the welcome is still to be sent, whatever was read into the other buffer
  have hkept : ∀ {w' : World} {rb : Buffer} {o : Origin}, rb.Wf →
      w'.heap key.data = { w.heap key.data with readBuffer := rb, origin := o } →
      w'.output = w.output → ∀ next, next = .greetingSread ∨ next = .greetingCwrite →
        Handled io key op .greetingSread next w w' := by
    intro w' rb o hrb hheap hout next hn
    refine ⟨by rw [hheap]; exact ⟨hrb, hbuf.writeBuffer, hbuf.transBuffer⟩, ?_, [],
      by rw [hout, List.append_nil], by simp, ?_, List.nil_sublist _, ?_⟩
    · rcases hn with rfl | rfl
      · intro _
        rw [hheap]
        exact hready
      · trivial
    · have hnil : (w'.heap key.data).leftForOrigin .greetingSread next = [] := by
        rcases hn with rfl | rfl <;> rfl
      rw [hnil]
      exact List.nil_sublist _
    · have hheld : (w'.heap key.data).heldForClient next = greetingOk := by
        rcases hn with rfl | rfl
        · rfl
        · rw [Pop3.heldForClient, hheap]
          exact hready
      rw [hheld]
      exact List.sublist_append_left _ _
  unfold greetingSread
  refine booked_bind fun p _ => booked_bind fun count hcount => ?_
  have hagain : Booked io key op .greetingSread w
      (if io.errno = .eagain ∨ io.errno = .ewouldblock then .ok (.greetingSread, w)
        else .ok (.greetingCwrite, w)) := by
    split_ifs
    · exact booked_ok (hkept hbuf.readBuffer rfl rfl _ (.inl rfl))
    · exact booked_ok (hkept hbuf.readBuffer rfl rfl _ (.inr rfl))
  cases hrecv : upTo io.recv count with
  | none => exact hagain
  | some bs =>
    cases bs with
    | nil => exact hagain
    | cons c cs =>
      obtain ⟨-, hfit⟩ := got_upTo hbuf.readBuffer hcount hrecv
      refine booked_bind fun rb hrb => ?_
      rw [Buffer.bufferWriteAdv_store hbuf.readBuffer hfit, Except.ok.injEq] at hrb
      subst hrb
      have hdone : Handled io key op .greetingSread .greetingCwrite w
          (w.modify key.data fun c' => { c' with
            readBuffer := (w.heap key.data).readBuffer.push (c :: cs)
            origin := .greeting (pop3SinglelineResponseBuilder (c :: cs) p none).state.1 }) :=
        hkept (Buffer.wf_push hbuf.readBuffer hfit) (by rw [World.heap_modify]) (by rfl) _
          (.inr rfl)
      simp only
      split_ifs
      · exact booked_handOver hdone _ _ _
      · exact booked_ok (hdone.failed rfl rfl)

/-- What `send` takes is a beginning of what it is offered. -/
theorem taken_eq {send : Option ℕ} {bytes sent : List Byte} (h : taken send bytes = some sent) :
    ∃ n, sent = bytes.take n := by
  obtain ⟨n, -, rfl⟩ := Option.map_eq_some_iff.mp h
  exact ⟨n, rfl⟩

/-- The two descriptors are not the same. -/
def Pop3.Apart (c : Pop3) : Prop := c.originFd ≠ c.clientFd

/-- It is sent to the client. -/
theorem greetingCwrite_booked (hbuf : (w.heap key.data).BuffersWf)
    (hfd : key.fd = (w.heap key.data).clientFd) (hapart : (w.heap key.data).Apart) :
    Booked io key op .greetingCwrite w (greetingCwrite io key w) := by
  unfold greetingCwrite
  refine booked_bind fun _ _ => booked_bind fun bytes hbytes => ?_
  rw [Buffer.bufferReadPtr_ok hbuf.writeBuffer, Except.ok.injEq] at hbytes
  subst hbytes
  cases hsent : taken io.send (w.heap key.data).writeBuffer.contents with
  | none =>
    exact booked_ok ⟨hbuf, trivial, [], (List.append_nil _).symm, by simp, List.nil_sublist _,
      List.nil_sublist _, List.nil_sublist _⟩
  | some sent =>
    obtain ⟨n, rfl⟩ := taken_eq hsent
    obtain ⟨b, hb, hleft, -⟩ := Buffer.Left.readAdv ⟨hbuf.writeBuffer, rfl⟩ n
    refine booked_bind fun b' hb' => ?_
    rw [hb, Except.ok.injEq] at hb'
    subst hb'
    have hdone : ∀ next, next = .greetingCwrite ∨ next = .commandCread →
        Handled io key op .greetingCwrite next w ((w.emit (.sent key.fd
          ((w.heap key.data).writeBuffer.contents.take n))).modify key.data
            fun c => { c with writeBuffer := b }) := by
      intro next hn
      refine ⟨?_, ?_, [.sent key.fd _], rfl, by simp [Output.own, hfd], ?_, ?_, ?_⟩
      · simp only [World.heap_modify, World.heap_emit]
        exact ⟨hbuf.readBuffer, hleft.wf, hbuf.transBuffer⟩
      · rcases hn with rfl | rfl <;> trivial
      · have hnil : ∀ c : Pop3, c.leftForOrigin .greetingCwrite next = [] := by
          rcases hn with rfl | rfl <;> exact fun _ => rfl
        rw [hnil, sentOn_sent, hfd, if_neg (Ne.symm hapart)]
        exact List.nil_sublist _
      · rw [piped_sent]
        exact List.nil_sublist _
      · rw [sentOn_sent, if_pos hfd]
        refine List.Sublist.trans ?_ (List.sublist_append_left _ _)
        show List.Sublist _ (w.heap key.data).writeBuffer.contents
        rcases hn with rfl | rfl
        · simp only [Pop3.heldForClient, World.heap_modify, World.heap_emit, hleft.contents,
            List.take_append_drop]
          exact List.Sublist.refl _
        · simp only [Pop3.heldForClient, List.append_nil]
          exact List.take_sublist _ _
    simp only
    split_ifs
    · exact booked_ok (hdone _ (.inl rfl))
    · exact booked_armed (hdone _ (.inr rfl)) _ _

/-- A command is read from the client. -/
theorem commandCread_booked (hbuf : (w.heap key.data).BuffersWf) :
    Booked io key .read .commandCread w (commandCread io key w) := by
  have hlost : Handled io key .read .commandCread .error w w :=
    ⟨hbuf, trivial, [], (List.append_nil _).symm, by simp, List.nil_sublist _, List.nil_sublist _,
      List.nil_sublist _⟩
  unfold commandCread
  refine booked_bind fun count hcount => ?_
  cases hrecv : upTo io.recv count with
  | none => exact booked_ok hlost
  | some bs =>
    cases bs with
    | nil => exact booked_ok hlost
    | cons b bs =>
      obtain ⟨hgot, hfit⟩ := got_upTo hbuf.readBuffer hcount hrecv
      have hread : (commandBuilder (b :: bs) (w.heap key.data).commandParser
          (w.heap key.data).currentCommand).read ≤ (b :: bs).length := Scan.scan_read_le _ _ _
      refine booked_bind fun rb hrb => ?_
      rw [Buffer.bufferWriteAdv_store hbuf.readBuffer hfit, Except.ok.injEq] at hrb
      subst hrb
      refine booked_bind fun rb' hrb' => ?_
      rw [Buffer.bufferWriteAdv_rewind hbuf.readBuffer hfit hread, Except.ok.injEq] at hrb'
      subst hrb'
      have hcontents := Buffer.contents_pushPart hbuf.readBuffer hread
      have hwf := Buffer.wf_pushPart hbuf.readBuffer hfit hread
      -- of the chunk, what the parser has read is held
      have hdone : ∀ {w' : World}, w'.output = w.output →
          (w'.heap key.data).readBuffer = (w.heap key.data).readBuffer.pushPart (b :: bs)
            (commandBuilder (b :: bs) (w.heap key.data).commandParser
              (w.heap key.data).currentCommand).read →
          (w'.heap key.data).writeBuffer = (w.heap key.data).writeBuffer →
          (w'.heap key.data).transBuffer = (w.heap key.data).transBuffer →
          ∀ next, next = .commandCread ∨ next = .commandSwrite →
            Handled io key .read .commandCread next w w' := by
        intro w' hout h1 h2 h3 next hn
        refine ⟨⟨by rw [h1]; exact hwf, by rw [h2]; exact hbuf.writeBuffer,
          by rw [h3]; exact hbuf.transBuffer⟩, ?_, [], by rw [hout, List.append_nil], by simp, ?_,
          List.nil_sublist _, ?_⟩
        · rcases hn with rfl | rfl <;> trivial
        · have hheld : (w'.heap key.data).leftForOrigin .commandCread next =
              (w'.heap key.data).readBuffer.contents := by
            rcases hn with rfl | rfl <;> simp [Pop3.leftForOrigin, Pop3.heldForOrigin]
          rw [hheld, h1, hcontents]
          show List.Sublist ([] ++ _) ((w.heap key.data).readBuffer.contents ++
            (w.heap key.data).readBuffer.got io.recv)
          rw [List.nil_append, hgot]
          exact (List.Sublist.refl _).append (List.take_sublist _ _)
        · have hnil : (w'.heap key.data).heldForClient next = [] := by
            rcases hn with rfl | rfl <;> rfl
          rw [hnil]
          exact List.nil_sublist _
      simp only
      split
      · refine booked_handOver (hdone (by rfl) ?_ ?_ ?_ _ (.inr rfl)) _ _ _
        all_goals
          simp only [World.heap_modify]
          split_ifs <;> rfl
      · refine booked_armed (hdone (by rfl) ?_ ?_ ?_ _ (.inl rfl)) _ _ <;>
          simp only [World.heap_modify]
      · refine booked_ok (Handled.failed (@hdone (w.modify key.data _) (by rfl) ?_ ?_ ?_ _
          (.inl rfl)) rfl rfl) <;> simp only [World.heap_modify]

/-- It is sent to the origin. -/
theorem commandSwrite_booked (hbuf : (w.heap key.data).BuffersWf)
    (hfd : key.fd = (w.heap key.data).originFd) (hapart : (w.heap key.data).Apart) :
    Booked io key op .commandSwrite w (commandSwrite io key w) := by
  unfold commandSwrite
  refine booked_bind fun bytes hbytes => ?_
  rw [Buffer.bufferReadPtr_ok hbuf.readBuffer, Except.ok.injEq] at hbytes
  subst hbytes
  -- what `send` takes is a beginning of what is in the buffer
  cases hsent : taken io.send (w.heap key.data).readBuffer.contents with
  | none =>
    exact booked_ok ⟨hbuf, trivial, [], (List.append_nil _).symm, by simp, List.nil_sublist _,
      List.nil_sublist _, List.nil_sublist _⟩
  | some sent =>
    obtain ⟨n, rfl⟩ := taken_eq hsent
    have hleft : (({ (w.heap key.data).readBuffer with read := (w.heap key.data).readBuffer.read +
        ((w.heap key.data).readBuffer.contents.take n).length } : Buffer)).Left
          ((w.heap key.data).readBuffer.contents.drop n) :=
      Buffer.Left.readOn ⟨hbuf.readBuffer, rfl⟩ n
    have hdone : ∀ next, next = .commandSwrite ∨ next = .responseSread →
        Handled io key op .commandSwrite next w ((w.emit (.sent key.fd
          ((w.heap key.data).readBuffer.contents.take n))).modify key.data fun c => { c with
            readBuffer := { (w.heap key.data).readBuffer with
              read := (w.heap key.data).readBuffer.read +
                ((w.heap key.data).readBuffer.contents.take n).length } }) := by
      intro next hn
      refine ⟨?_, ?_, [.sent key.fd _], rfl, by simp [Output.own, hfd], ?_, ?_, ?_⟩
      · simp only [World.heap_modify, World.heap_emit]
        exact ⟨hleft.wf, hbuf.writeBuffer, hbuf.transBuffer⟩
      · rcases hn with rfl | rfl
        · trivial
        · exact fun heq => by cases heq
      · rw [sentOn_sent, if_pos hfd]
        refine List.Sublist.trans ?_ (List.sublist_append_left _ _)
        show List.Sublist _ (w.heap key.data).readBuffer.contents
        rcases hn with rfl | rfl
        · simp only [Pop3.leftForOrigin, Pop3.heldForOrigin, World.heap_modify, World.heap_emit,
            hleft.contents]
          simp
        · simp only [Pop3.leftForOrigin, Pop3.heldForOrigin]
          simpa using List.take_sublist _ _
      · rw [piped_sent]
        exact List.nil_sublist _
      · have hnil : ∀ c : Pop3, c.heldForClient next = [] := by
          rcases hn with rfl | rfl <;> exact fun _ => rfl
        rw [hnil, sentOn_sent, hfd, if_neg hapart]
        exact List.nil_sublist _
    simp only
    split_ifs
    · exact booked_ok (hdone _ (.inl rfl))
    · exact booked_armed (hdone _ (.inr rfl)) _ _

/-! ### The reply -/

/-- A chunk of a reply was read: it went to the filter or not, and it, or what the filter gave, is
to be sent to the client. -/
structure Taken (key : SelectorKey) (io : Io) (s : States) (chunk : List Byte) (w w' : World) :
    Prop where
  wf : (w'.heap key.data).BuffersWf
  limit : (w'.heap key.data).transBuffer.limit = rawBuffTrans
  fed : w'.output = w.output ∨
    ∃ fd, w'.output = w.output ++ [.wrote fd chunk] ∧ (w.heap key.data).hasPipe io fd = true
  held : (w'.heap key.data).relayBuffer.contents.Sublist
    (chunk ++ (w.heap key.data).fromFilter s .read io)

/-- A chunk that was taken is what the handler has received. -/
theorem Taken.handled {chunk : List Byte} (h : Taken key io s chunk w w')
    (hs : s = .responseSread ∨ s = .dotDataSread)
    (hchunk : (w.heap key.data).fromOrigin s .read io = chunk)
    (hn : next = .responseCwrite ∨ next = .dotDataCwrite) :
    Handled io key .read s next w w' := by
  obtain ⟨out, hout, hown, hsent, hpiped⟩ : ∃ out, w'.output = w.output ++ out ∧
      (∀ x ∈ out, x.own (w.heap key.data) io = true) ∧ (∀ fd, sentOn fd out = []) ∧
      (piped out).Sublist chunk := by
    rcases h.fed with hout | ⟨fd, hout, hpipe⟩
    · exact ⟨[], by rw [hout, List.append_nil], by simp, fun _ => rfl, List.nil_sublist _⟩
    · exact ⟨_, hout, by simpa [Output.own] using hpipe, fun fd' => sentOn_wrote fd' fd chunk,
        by rw [piped_wrote]⟩
  refine ⟨h.wf, ?_, out, hout, hown, ?_, by rw [hchunk]; exact hpiped, ?_⟩
  · rcases hn with rfl | rfl <;> exact h.limit
  · have hnil : ∀ c : Pop3, c.leftForOrigin s next = [] := by
      rcases hn with rfl | rfl <;> exact fun _ => rfl
    rw [hsent, hnil]
    exact List.nil_sublist _
  · have hheld :
      (w'.heap key.data).heldForClient next = (w'.heap key.data).relayBuffer.contents := by
      rcases hn with rfl | rfl <;> rfl
    have hnil : (w.heap key.data).heldForClient s = [] := by
      rcases hs with rfl | rfl <;> rfl
    rw [hsent, hheld, hnil, hchunk]
    exact h.held

/-- Nothing comes any more. -/
theorem handled_lost (hwf : (w'.heap key.data).BuffersWf) (hout : w'.output = w.output) :
    Handled io key .read s .error w w' :=
  ⟨hwf, trivial, [], by rw [hout, List.append_nil], by simp, List.nil_sublist _, List.nil_sublist _,
    List.nil_sublist _⟩

/-- So is one that went to the filter. -/
theorem Filtered.taken {chunk : List Byte} {w₁ : World}
    (h : Filtered io key.data chunk w₁ w') (hout : w₁.output = w.output)
    (hpipe : (w₁.heap key.data).senderPipe = (w.heap key.data).senderPipe)
    (hr : (w₁.heap key.data).readBuffer.Wf) (hw : (w₁.heap key.data).writeBuffer.Wf)
    (ht : (w₁.heap key.data).transform = true)
    (hfilter : (w.heap key.data).fromFilter s .read io = fromFilter io) :
    Taken key io s chunk w w' := by
  obtain ⟨p, q, tb, hheap, hfilled⟩ := h.heap
  obtain ⟨fd, hfed, hmade⟩ := h.output
  rw [Pop3.hasPipe, hpipe] at hmade
  refine ⟨?_, ?_, .inr ⟨fd, by rw [hfed, hout], hmade⟩, ?_⟩
  · rw [hheap]
    exact ⟨hr, hw, hfilled.wf⟩
  · rw [hheap]
    exact hfilled.limit
  · rw [hheap, Pop3.relayBuffer, if_pos ht, hfilled.contents, hfilter]
    exact List.sublist_append_right _ _

/-- A chunk of a reply of many lines. -/
theorem responseMultiline_booked {w₁ : World} {b : Byte} {bs : List Byte} (p : SinglelineState)
    (m : MultilineState) (hout : w₁.output = w.output)
    (hpipe : (w₁.heap key.data).senderPipe = (w.heap key.data).senderPipe)
    (hr : (w₁.heap key.data).readBuffer.Wf) (hw : (w₁.heap key.data).writeBuffer.Left (b :: bs))
    (ht : (w₁.heap key.data).transBuffer.Filled rawBuffTrans [])
    (hchunk : (w.heap key.data).fromOrigin .responseSread .read io = b :: bs)
    (hfilter : isTransformed (w₁.heap key.data).currentCommand.kwrd = true →
      (w.heap key.data).fromFilter .responseSread .read io = fromFilter io) :
    Booked io key .read .responseSread w (responseMultiline io key (b :: bs) p m w₁) := by
  have hnext : ∀ q : Prop, [Decidable q] → (if q then States.responseCwrite else .dotDataCwrite) =
      .responseCwrite ∨ (if q then States.responseCwrite else .dotDataCwrite) = .dotDataCwrite := by
    intro q _
    split_ifs
    · exact .inl rfl
    · exact .inr rfl
  unfold responseMultiline
  simp only
  generalize hw₂ : (w₁.modify key.data fun c => { c with
    origin := .response p (pop3MultilineResponseChecker (b :: bs) m).state
    transform := isTransformed (w₁.heap key.data).currentCommand.kwrd }) = w₂
  have hheap : w₂.heap key.data = { w₁.heap key.data with
      origin := .response p (pop3MultilineResponseChecker (b :: bs) m).state
      transform := isTransformed (w₁.heap key.data).currentCommand.kwrd } := by
    rw [← hw₂, World.heap_modify]
  have hout₂ : w₂.output = w.output := by
    rw [← hw₂]
    exact hout
  refine booked_bind fun w₃ hw₃ => ?_
  -- through a filter or not, the struct is left with what this chunk has brought
  have htaken : Taken key io .responseSread (b :: bs) w w₃ := by
    cases htr : isTransformed (w₁.heap key.data).currentCommand.kwrd with
    | false =>
      rw [htr, if_neg (by simp), Except.ok.injEq] at hw₃
      subst hw₃
      refine ⟨?_, ?_, .inl hout₂, ?_⟩
      · rw [hheap]
        exact ⟨hr, hw.wf, ht.wf⟩
      · rw [hheap]
        exact ht.limit
      · rw [hheap, Pop3.relayBuffer, if_neg (by simp [htr]), hw.contents]
        exact List.sublist_append_left _ _
    | true =>
      rw [htr, if_pos rfl] at hw₃
      obtain ⟨w', hstart, hfiltered⟩ := startFilter_filtered (a := key.data) (w := w₂) io
        (by rw [hheap]; exact hw) (by rw [hheap]; exact ht)
      rw [hstart, Except.ok.injEq] at hw₃
      subst hw₃
      refine hfiltered.taken hout₂ ?_ ?_ ?_ ?_ (hfilter htr) <;> rw [hheap]
      · exact hpipe
      · exact hr
      · exact hw.wf
      · exact htr
  exact booked_handOver (htaken.handled (.inl rfl) hchunk (hnext _)) _ _ _

/-- The reply is read, from its status line on. -/
theorem responseSread_booked (hbuf : (w.heap key.data).BuffersWf)
    (hready : (w.heap key.data).Ready .responseSread) :
    Booked io key .read .responseSread w (responseSread io key w) := by
  obtain ⟨hempty, htrans⟩ := hready
  unfold responseSread
  refine booked_bind fun pm hpm => booked_bind fun count hcount => ?_
  cases hrecv : upTo io.recv count with
  | none => exact booked_ok (handled_lost hbuf rfl)
  | some bs =>
    cases bs with
    | nil => exact booked_ok (handled_lost hbuf rfl)
    | cons b bs =>
      obtain ⟨hgot, hfit⟩ := got_upTo hbuf.writeBuffer hcount hrecv
      refine booked_bind fun wb hwb => ?_
      rw [Buffer.bufferWriteAdv_store hbuf.writeBuffer hfit, Except.ok.injEq] at hwb
      subst hwb
      -- the buffer was empty, so what is in it now is this chunk
      have hleft : ((w.heap key.data).writeBuffer.push (b :: bs)).Left (b :: bs) := by
        refine ⟨Buffer.wf_push hbuf.writeBuffer hfit, ?_⟩
        rw [Buffer.contents_push hbuf.writeBuffer, hempty, List.nil_append]
      have horigin : ∃ p m, (w.heap key.data).origin = .response p m ∧ pm = (p, m) := by
        cases ho : (w.heap key.data).origin with
        | connecting _ | greeting _ => rw [ho] at hpm; cases hpm
        | response p m =>
          rw [ho] at hpm
          exact ⟨p, m, rfl, (Except.ok.inj hpm).symm⟩
      obtain ⟨p, m, ho, rfl⟩ := horigin
      simp only
      split_ifs with hfin
      -- the status line is there, so this chunk starts a filter if any does
      · have hfilter : (w.heap key.data).currentCommand.expectsBody = true →
            isTransformed (w.heap key.data).currentCommand.kwrd = true →
            (w.heap key.data).fromFilter .responseSread .read io = fromFilter io := by
          intro hbody htr
          refine if_pos ?_
          rw [hgot]
          simp [Pop3.startsFilter, ho, hfin, hbody, htr]
        have hmulti : (w.heap key.data).currentCommand.expectsBody = true → ∀ q,
            Booked io key .read .responseSread w (responseMultiline io key (b :: bs) q m
              (w.modify key.data fun d => { d with
                writeBuffer := (w.heap key.data).writeBuffer.push (b :: bs)
                origin := .response (pop3SinglelineResponseBuilder (b :: bs) p none).state.1
                  m })) := fun hbody q => by
          refine responseMultiline_booked q m rfl ?_ ?_ ?_ ?_ hgot ?_ <;>
            simp only [World.heap_modify]
          · exact hbuf.readBuffer
          · exact hleft
          · exact htrans
          · exact hfilter hbody
        split
        · rename_i htype
          exact hmulti (by simp [Pop3CommandBuilder.expectsBody, htype]) _
        · rename_i htype hargs
          exact hmulti (by simp [Pop3CommandBuilder.expectsBody, htype, hargs]) _
        -- a single line is sent from the buffer an earlier reply has chosen
        · have htaken : Taken key io .responseSread (b :: bs) w (w.modify key.data fun d => { d with
              writeBuffer := (w.heap key.data).writeBuffer.push (b :: bs)
              origin :=
                .response (pop3SinglelineResponseBuilder (b :: bs) p none).state.1 m }) := by
            refine ⟨?_, ?_, .inl rfl, ?_⟩ <;> simp only [World.heap_modify]
            · exact ⟨hbuf.readBuffer, hleft.wf, htrans.wf⟩
            · exact htrans.limit
            · rw [Pop3.relayBuffer]
              split_ifs
              · simp only [htrans.contents]
                exact List.nil_sublist _
              · simp only [hleft.contents]
                exact List.sublist_append_left _ _
          exact booked_handOver (htaken.handled (.inl rfl) hgot (.inl rfl)) _ _ _
      · refine booked_ok (handled_lost ?_ rfl)
        simp only [World.heap_modify]
        exact ⟨hbuf.readBuffer, hleft.wf, htrans.wf⟩

/-- The rest of it is read. -/
theorem dotDataSread_booked (hbuf : (w.heap key.data).BuffersWf)
    (hready : (w.heap key.data).Ready .dotDataSread) :
    Booked io key .read .dotDataSread w (dotDataSread io key w) := by
  obtain ⟨hempty, htrans⟩ := hready
  unfold dotDataSread
  refine booked_bind fun _ _ => booked_bind fun count hcount => ?_
  cases hrecv : upTo io.recv count with
  | none => exact booked_ok (handled_lost hbuf rfl)
  | some bs =>
    cases bs with
    | nil => exact booked_ok (handled_lost hbuf rfl)
    | cons b bs =>
      obtain ⟨hgot, hfit⟩ := got_upTo hbuf.writeBuffer hcount hrecv
      refine booked_bind fun wb hwb => ?_
      rw [Buffer.bufferWriteAdv_store hbuf.writeBuffer hfit, Except.ok.injEq] at hwb
      subst hwb
      -- the buffer was empty, so what is in it now is this chunk
      have hleft : ((w.heap key.data).writeBuffer.push (b :: bs)).Left (b :: bs) := by
        refine ⟨Buffer.wf_push hbuf.writeBuffer hfit, ?_⟩
        rw [Buffer.contents_push hbuf.writeBuffer, hempty, List.nil_append]
      generalize hw₁ : (w.modify key.data fun d => { d with
        writeBuffer := (w.heap key.data).writeBuffer.push (b :: bs) }) = w₁
      have hheap : w₁.heap key.data = { w.heap key.data with
          writeBuffer := (w.heap key.data).writeBuffer.push (b :: bs) } := by
        rw [← hw₁, World.heap_modify]
      have hout : w₁.output = w.output := by
        rw [← hw₁]
        rfl
      refine booked_bind fun w₂ hw₂ => ?_
      have htaken : Taken key io .dotDataSread (b :: bs) w w₂ := by
        cases htr : (w.heap key.data).transform with
        | false =>
          rw [htr, if_neg (by simp), Except.ok.injEq] at hw₂
          subst hw₂
          refine ⟨?_, ?_, .inl hout, ?_⟩ <;> rw [hheap]
          · exact ⟨hbuf.readBuffer, hleft.wf, htrans.wf⟩
          · exact htrans.limit
          · rw [Pop3.relayBuffer, if_neg (by simp [htr]), hleft.contents]
            exact List.sublist_append_left _ _
        | true =>
          rw [htr, if_pos rfl] at hw₂
          obtain ⟨w', hcontinue, hfiltered⟩ := continueFilter_filtered (a := key.data) (w := w₁) io
            (by rw [hheap]; exact hleft) (by rw [hheap]; exact htrans.limit)
          rw [hcontinue, Except.ok.injEq] at hw₂
          subst hw₂
          refine hfiltered.taken hout (by rw [hheap]) ?_ ?_ ?_ ?_
          · rw [hheap]
            exact hbuf.readBuffer
          · rw [hheap]
            exact hleft.wf
          · rw [hheap]
            exact htr
          · refine if_pos ?_
            rw [hgot]
            simp [htr]
      refine booked_handOver (htaken.handled (.inr rfl) hgot ?_) _ _ _
      split_ifs
      · exact .inl rfl
      · exact .inr rfl

/-- What is to be sent to the client is sent, as far as it goes. -/
theorem relay_booked {drained : World → States × World} {done : States}
    (hs : s = .responseCwrite ∨ s = .dotDataCwrite)
    (hdone : done = .commandCread ∨ done = .dotDataSread)
    (hbuf : (w.heap key.data).BuffersWf) (hready : (w.heap key.data).Ready s)
    (hfd : key.fd = (w.heap key.data).clientFd) (hapart : (w.heap key.data).Apart)
    (hdrained : ∀ w₁, Handled io key op s done w w₁ → Booked io key op s w (.ok (drained w₁))) :
    Booked io key op s w (relay s drained io key w) := by
  have hlimit : (w.heap key.data).transBuffer.limit = rawBuffTrans := by
    rcases hs with rfl | rfl <;> exact hready
  have hrelay : (w.heap key.data).relayBuffer.Wf := by
    rw [Pop3.relayBuffer]
    split_ifs
    · exact hbuf.transBuffer
    · exact hbuf.writeBuffer
  have hheld : (w.heap key.data).heldForClient s = (w.heap key.data).relayBuffer.contents := by
    rcases hs with rfl | rfl <;> rfl
  unfold relay
  refine booked_bind fun pm _ => booked_bind fun bytes hbytes => ?_
  have hbytes : bufferReadPtr (w.heap key.data).relayBuffer = .ok bytes := hbytes
  rw [Buffer.bufferReadPtr_ok hrelay, Except.ok.injEq] at hbytes
  subst hbytes
  -- what `send` takes is a beginning of what is in the buffer
  cases hsent : taken io.send (w.heap key.data).relayBuffer.contents with
  | none =>
    exact booked_ok ⟨hbuf, trivial, [], (List.append_nil _).symm, by simp, List.nil_sublist _,
      List.nil_sublist _, List.nil_sublist _⟩
  | some sent =>
    obtain ⟨n, rfl⟩ := taken_eq hsent
    obtain ⟨b, hb, hleft, hblimit⟩ := Buffer.Left.readAdv ⟨hrelay, rfl⟩ n
    refine booked_bind fun b' hb' => ?_
    have hb' : bufferReadAdv (w.heap key.data).relayBuffer
      ((w.heap key.data).relayBuffer.contents.take n).length = .ok b' := hb'
    rw [hb, Except.ok.injEq] at hb'
    subst hb'
    obtain ⟨o, ho⟩ : ∃ o, o = Origin.response (pop3SinglelineResponseBuilder
      ((w.heap key.data).relayBuffer.contents.take n) pm.1 none).state.1 pm.2 := ⟨_, rfl⟩
    obtain ⟨w₁, hw₁⟩ : ∃ w₁, w₁ = (w.emit (.sent key.fd
      ((w.heap key.data).relayBuffer.contents.take n))).modify key.data
        fun c => c.relayedFrom b o := ⟨_, rfl⟩
    have hstruct : w₁.heap key.data = (w.heap key.data).relayedFrom b o := by
      rw [hw₁, World.heap_modify, World.heap_emit]
    suffices hgoal : Booked io key op s w
        (if bufferCanRead b then .ok (s, w₁) else .ok (drained w₁)) by
      rw [hw₁, ho] at hgoal
      exact hgoal
    -- the buffer is the one the flag chooses, and the other one is left alone
    have hafter : ((w.heap key.data).relayedFrom b o).BuffersWf ∧
        ((w.heap key.data).relayedFrom b o).transBuffer.limit = rawBuffTrans ∧
        ((w.heap key.data).relayedFrom b o).relayBuffer = b := by
      unfold Pop3.relayBuffer at hblimit
      unfold Pop3.relayedFrom
      cases ht : (w.heap key.data).transform with
      | true =>
        rw [ht, if_pos rfl] at hblimit
        rw [if_pos rfl]
        exact ⟨⟨hbuf.readBuffer, hbuf.writeBuffer, hleft.wf⟩, hblimit.trans hlimit, rfl⟩
      | false =>
        rw [if_neg (by simp)]
        exact ⟨⟨hbuf.readBuffer, hleft.wf, hbuf.transBuffer⟩, hlimit, rfl⟩
    -- the rest is still there if the state stays, and there is none if it does not
    have hhandled : ∀ next, next = s ∨ next = done → Handled io key op s next w w₁ := by
      intro next hn
      refine ⟨?_, ?_, [.sent key.fd ((w.heap key.data).relayBuffer.contents.take n)],
        by rw [hw₁]; rfl, by simp [Output.own, hfd], ?_, ?_, ?_⟩
      · rw [hstruct]
        exact hafter.1
      · rw [hstruct]
        rcases hn with rfl | rfl
        · rcases hs with rfl | rfl <;> exact hafter.2.1
        · rcases hdone with rfl | rfl
          · trivial
          · refine ⟨fun heq => ?_, hafter.2.1⟩
            rcases hs with rfl | rfl <;> cases heq
      · have hnil : ∀ c : Pop3, c.leftForOrigin s next = [] := by
          rcases hn with rfl | rfl
          · rcases hs with rfl | rfl <;> exact fun _ => rfl
          · rcases hdone with rfl | rfl <;> rcases hs with rfl | rfl <;> exact fun _ => rfl
        rw [hnil, sentOn_sent, hfd, if_neg (Ne.symm hapart)]
        exact List.nil_sublist _
      · rw [piped_sent]
        exact List.nil_sublist _
      · rw [sentOn_sent, if_pos hfd, hheld]
        refine List.Sublist.trans ?_ (List.sublist_append_left _ _)
        rcases hn with rfl | rfl
        · have hheld' : ∀ c : Pop3, c.heldForClient next = c.relayBuffer.contents := by
            rcases hs with rfl | rfl <;> exact fun _ => rfl
          rw [hheld', hstruct, hafter.2.2, hleft.contents, List.take_append_drop]
        · have hnil : ∀ c : Pop3, c.heldForClient next = [] := by
            rcases hdone with rfl | rfl <;> exact fun _ => rfl
          rw [hnil, List.append_nil]
          exact List.take_sublist _ _
    split_ifs
    · exact booked_ok (hhandled _ (.inl rfl))
    · exact hdrained _ (hhandled _ (.inr rfl))

/-! ## One event -/

/-- The descriptors the handlers send on. -/
structure Sends (c : Pop3) (s : States) (fd : Int) : Prop where
  client : s = .greetingCwrite ∨ s = .responseCwrite ∨ s = .dotDataCwrite → fd = c.clientFd
  origin : s = .commandSwrite → fd = c.originFd

/-- **Every handler** passes on what it holds and what it receives. -/
theorem handler_booked {f : World → Except Fault (States × World)}
    (hh : handlerOf io key op s = some f) (hs : s ≠ .pipeDream)
    (hbuf : (w.heap key.data).BuffersWf) (hready : (w.heap key.data).Ready s)
    (hfd : Sends (w.heap key.data) s key.fd) (hapart : (w.heap key.data).Apart) :
    Booked io key op s w (f w) := by
  cases op <;> cases s <;> cases hh
  · exact greetingSread_booked hbuf hready
  · exact commandCread_booked hbuf
  · exact responseSread_booked hbuf hready
  · exact dotDataSread_booked hbuf hready
  · exact processConnection_booked hbuf hready
  · exact establConnection_booked hbuf hready
  · exact greetingCwrite_booked hbuf (hfd.client (.inl rfl)) hapart
  · exact commandSwrite_booked hbuf (hfd.origin rfl) hapart
  · exact relay_booked (.inr rfl) (.inr rfl) hbuf hready (hfd.client (.inr (.inr rfl))) hapart
      fun w₁ h => booked_handOver h _ _ _
  · exact relay_booked (.inl rfl) (.inl rfl) hbuf hready (hfd.client (.inr (.inl rfl))) hapart
      fun w₁ h => booked_armed h _ _
  · exact absurd rfl hs
  · exact resolvConnection_booked hbuf hready

/-- The next state was entered. -/
structure Entered (key : SelectorKey) (s next : States) (w w' : World) : Prop where
  wf : (w'.heap key.data).BuffersWf
  ready : (w'.heap key.data).Ready next
  output : w'.output = w.output
  origin : (w'.heap key.data).heldForOrigin next = (w.heap key.data).leftForOrigin s next
  client : (w'.heap key.data).heldForClient next = (w.heap key.data).heldForClient next

/-- Entering a state keeps what the handler has left. -/
theorem enter_entered (hwf : (w.heap key.data).BuffersWf)
    (hentering : (w.heap key.data).Entering s next) (h : enter key s next w = .ok w') :
    Entered key s next w w' := by
  unfold enter at h
  split_ifs at h with heq
  · subst heq
    obtain rfl := Except.ok.inj h
    -- staying in a state runs no hook
    refine ⟨hwf, ?_, rfl, (if_neg fun hboth => hboth.2 hboth.1).symm, rfl⟩
    cases s with
    | greetingSread | responseSread => exact hentering rfl
    | dotDataSread => exact hentering.1 rfl
    | processConnection | resolvConnection | establConnection | greetingCwrite | commandCread
      | commandSwrite | dotDataCwrite | responseCwrite | pipeDream | update | error =>
      exact hentering
  · have hne : s ≠ next := heq
    cases next with
    | processConnection =>
      obtain rfl := Except.ok.inj h
      refine ⟨?_, ?_, rfl, rfl, rfl⟩ <;> rw [World.heap_modify]
      · exact ⟨hwf.readBuffer, hwf.writeBuffer, hwf.transBuffer⟩
      · exact hentering
    | establConnection =>
      obtain ⟨-, -, h⟩ := bind_eq_ok.mp h
      obtain rfl := Except.ok.inj h
      exact ⟨hwf, hentering, rfl, rfl, rfl⟩
    | greetingSread =>
      obtain ⟨b, hb, h⟩ := bind_eq_ok.mp h
      obtain rfl := Except.ok.inj h
      -- the welcome is written into a buffer of its own length
      have hlen : bufferWriteAdv (bufferInit greetingOk.length greetingOk) greetingOk.length =
          .ok ⟨greetingOk, greetingOk.length, 0, greetingOk.length⟩ := rfl
      rw [hlen] at hb
      obtain rfl := Except.ok.inj hb
      refine ⟨?_, ?_, rfl, rfl, rfl⟩ <;> rw [World.heap_modify]
      · exact ⟨hwf.readBuffer, ⟨Nat.zero_le _, Nat.le_refl _, Nat.le_refl _⟩, hwf.transBuffer⟩
      · exact List.take_length
    | commandCread =>
      obtain rfl := Except.ok.inj h
      refine ⟨?_, trivial, rfl, ?_, rfl⟩ <;> rw [World.heap_modify]
      · exact ⟨Buffer.wf_reset _, Buffer.wf_reset _, hwf.transBuffer⟩
      · rw [Pop3.leftForOrigin, if_pos ⟨rfl, hne⟩]
        exact Buffer.contents_reset _
    | responseSread =>
      obtain rfl := Except.ok.inj h
      refine ⟨?_, ?_, rfl, rfl, rfl⟩ <;> rw [World.heap_modify]
      · exact ⟨hwf.readBuffer, Buffer.wf_reset _, Buffer.wf_reset _⟩
      · exact ⟨Buffer.contents_reset _, Buffer.filled_reset (bufferInit rawBuffTrans [])⟩
    | dotDataSread =>
      obtain ⟨-, -, h⟩ := bind_eq_ok.mp h
      obtain rfl := Except.ok.inj h
      refine ⟨?_, ?_, rfl, rfl, rfl⟩ <;> rw [World.heap_modify]
      · exact ⟨hwf.readBuffer, Buffer.wf_reset _, Buffer.wf_reset _⟩
      · refine ⟨Buffer.contents_reset _, ?_⟩
        have hfilled := Buffer.filled_reset (w.heap key.data).transBuffer
        rw [hentering.2] at hfilled
        exact hfilled
    | pipeDream =>
      obtain rfl := Except.ok.inj h
      refine ⟨?_, trivial, rfl, rfl, rfl⟩
      rw [World.heap_modify]
      exact ⟨hwf.readBuffer, hwf.writeBuffer, hwf.transBuffer⟩
    | resolvConnection | greetingCwrite | commandSwrite | dotDataCwrite | responseCwrite | update
      | error =>
      obtain rfl := Except.ok.inj h
      exact ⟨hwf, hentering, rfl, rfl, rfl⟩

end

/-! ## The books balance -/

/-- What was sent was received before. -/
structure Ledger.Honest (f : Ledger) : Prop where
  toOrigin : f.toOrigin.Sublist f.fromClient
  toFilter : f.toFilter.Sublist f.fromOrigin
  toClient : f.toClient.Sublist (greetingOk ++ f.supply)
  astray : f.astray = []

/-- What was sent, together with what is still to be sent, was received. -/
structure Reconciled (c : Pop3) (s : States) (f : Ledger) : Prop where
  wf : c.BuffersWf
  ready : c.Ready s
  toOrigin : (f.toOrigin ++ c.heldForOrigin s).Sublist f.fromClient
  toFilter : f.toFilter.Sublist f.fromOrigin
  toClient : (f.toClient ++ c.heldForClient s).Sublist (greetingOk ++ f.supply)
  astray : f.astray = []

/-- So the whole connection is honest. -/
theorem Reconciled.honest {c : Pop3} {s : States} {f : Ledger} (h : Reconciled c s f) :
    f.Honest where
  toOrigin := (List.sublist_append_left _ _).trans h.toOrigin
  toFilter := h.toFilter
  toClient := (List.sublist_append_left _ _).trans h.toClient
  astray := h.astray

/-- A sublist grows at its end: what was held is replaced by what is held now. -/
theorem sublist_carry {α : Type} {sent held received sent' held' received' : List α}
    (h : (sent ++ held).Sublist received) (h' : (sent' ++ held').Sublist (held ++ received')) :
    ((sent ++ sent') ++ held').Sublist (received ++ received') := by
  rw [List.append_assoc]
  refine ((List.Sublist.refl sent).append h').trans ?_
  rw [← List.append_assoc]
  exact h.append (List.Sublist.refl _)

/-- **One call** keeps the books. -/
theorem Reconciled.call {io : Io} {key : SelectorKey} {op : Op} {s next : States} {w w₁ w₂ : World}
    {f : Ledger} (h : Reconciled (w.heap key.data) s f) (hstate : (w.heap key.data).state = s)
    (hh : Handled io key op s next w w₁) (he : Entered key s next w₁ w₂) {out : List Output}
    (hout : w₁.output = w.output ++ out) :
    Reconciled (w₂.heap key.data) next (f.call (w.heap key.data) op io out) := by
  obtain ⟨out', hout', hown, horigin, hfilter, hclient⟩ := hh.moved
  rw [hout, List.append_cancel_left_eq] at hout'
  subst hout'
  refine ⟨he.wf, he.ready, ?_, ?_, ?_, ?_⟩
  · simp only [Ledger.call, hstate]
    rw [he.origin]
    exact sublist_carry h.toOrigin horigin
  · simp only [Ledger.call, hstate]
    exact h.toFilter.append hfilter
  · simp only [Ledger.call, hstate]
    rw [he.client, ← List.append_assoc]
    exact sublist_carry h.toClient hclient
  · simp only [Ledger.call, h.astray, List.nil_append]
    exact List.filter_eq_nil_iff.mpr fun x hx => by simp [hown x hx]

/-! ## Every run -/

/-- The state that is stored, as an enumeration. -/
theorem Pop3.state_eq {c : Pop3} {s : Option States} (h : c.current = s.map States.num) :
    c.state = stateOf s := by
  rw [Pop3.state, h]
  cases s with
  | none => rfl
  | some s => cases s <;> rfl

section
variable {io : Io} {key : SelectorKey} {op : Op} {s : Option States} {l : Wires} {a : Addr}
  {w w' : World} {p p' : Proxy} {t : List Posting}

/-- The two descriptors of a connection differ. -/
theorem Wired.apart (h : Wired w a l) : (w.heap a).Apart := by
  intro heq
  have hclient := h.client
  have horigin := h.origin
  rw [← heq] at hclient
  cases hl : l.origin with
  | absent =>
    simp only [OriginIs, hl] at horigin
    rw [horigin, item_neg_one] at hclient
    cases hclient
  | leaked =>
    simp only [OriginIs, hl] at horigin
    rw [horigin.2.2] at hclient
    cases hclient
  | armed i =>
    simp only [OriginIs, hl] at horigin
    exact horigin.1 heq

/-- The handlers that send are called for the descriptor they send on. -/
theorem Allowed.sends (hall : Allowed s l) (hd : Dispatched w key.data s l key.fd op)
    (hh : (handlerOf io key op (stateOf s)).isSome = true) :
    Sends (w.heap key.data) (stateOf s) key.fd := by
  cases hall with
  | fresh | resolving | connecting | attemptFailed _ _ | awaiting | unconnected _ | command _ =>
    refine ⟨fun hs => ?_, fun hs => ?_⟩
    · rcases hs with hs | hs | hs <;> cases hs
    · cases hs
  | greeting ho =>
    refine ⟨fun _ => ?_, fun hs => by cases hs⟩
    cases hd with
    | client hfd _ | block hfd _ => exact hfd
    | origin _ ho' hbit =>
      rcases ho with (rfl | rfl) | rfl <;> cases ho'
      cases op <;> cases hbit
  | greetingLost =>
    cases op <;> cases hh
    cases hd with
    | client _ hbit => cases hbit
    | origin _ ho hbit =>
      cases ho
      cases hbit
  | greetingNever ho =>
    refine ⟨fun _ => ?_, fun hs => by cases hs⟩
    cases hd with
    | client hfd _ | block hfd _ => exact hfd
    | origin _ ho' _ => rcases ho with rfl | rfl <;> cases ho'
  | forward =>
    refine ⟨fun hs => ?_, fun _ => ?_⟩
    · rcases hs with hs | hs | hs <;> cases hs
    · cases hd with
      | client _ hbit => cases op <;> cases hbit
      | origin hfd _ _ => exact hfd
      | block _ hs => cases hs
  | reply hs =>
    refine ⟨fun hs' => ?_, fun hs' => ?_⟩
    · rcases hs with rfl | rfl <;> rcases hs' with hs' | hs' | hs' <;> cases hs'
    · rcases hs with rfl | rfl <;> cases hs'
  | relay hs =>
    refine ⟨fun _ => ?_, fun hs' => ?_⟩
    · cases hd with
      | client hfd _ | block hfd _ => exact hfd
      | origin _ ho hbit =>
        cases ho
        cases op <;> cases hbit
    · rcases hs with rfl | rfl <;> cases hs'

/-- No handler is ever called in that state. -/
theorem Allowed.not_pipeDream (hall : Allowed s l) : stateOf s ≠ .pipeDream := by
  intro h
  obtain rfl := stateOf_eq h (by simp)
  cases hall with
  | reply hs => simp at hs
  | relay hs => simp at hs

/-- The first event of a connection only notes the kind of the origin server. -/
theorem Handled.of_firstWorld {next : States} (h : Handled io key op (stateOf s) next
    (firstWorld key s w) w') : Handled io key op (stateOf s) next w w' := by
  cases s with
  | none =>
    obtain ⟨out, hout, hown, horigin, hfilter, hclient⟩ := h.moved
    simp only [firstWorld, World.heap_modify] at hown horigin hfilter hclient
    exact ⟨h.wf, h.entering, out, hout, hown, horigin, hfilter, hclient⟩
  | some s => exact h

/-- The books do not depend on the fields that are not a buffer. -/
theorem Reconciled.congr {c c' : Pop3} {s : States} {f : Ledger} (h : Reconciled c s f)
    (hr : c'.readBuffer = c.readBuffer) (hw : c'.writeBuffer = c.writeBuffer)
    (ht : c'.transBuffer = c.transBuffer) (htr : c'.transform = c.transform) :
    Reconciled c' s f := by
  have hrelay : c'.relayBuffer = c.relayBuffer := by rw [Pop3.relayBuffer, htr, hw, ht]; rfl
  refine ⟨⟨?_, ?_, ?_⟩, ?_, ?_, h.toFilter, ?_, h.astray⟩
  · rw [hr]; exact h.wf.readBuffer
  · rw [hw]; exact h.wf.writeBuffer
  · rw [ht]; exact h.wf.transBuffer
  · have hready := h.ready
    unfold Pop3.Ready at hready ⊢
    rw [hw, ht]
    exact hready
  · have horigin := h.toOrigin
    unfold Pop3.heldForOrigin at horigin ⊢
    rw [hr]
    exact horigin
  · have hclient := h.toClient
    unfold Pop3.heldForClient at hclient ⊢
    rw [hw, hrelay]
    exact hclient

/-- **An event of a connection** keeps its books balanced. -/
theorem suscription_reconciled {f : Ledger} (hsnd : Sound w) (hc : Connected w key.data s l)
    (hd : Dispatched w key.data s l key.fd op)
    (hbal : Reconciled (w.heap key.data) (stateOf s) f) (hrun : op.suscription io key w = .ok w') :
    ∃ out, w'.output = w.output ++ out ∧ (f.call (w.heap key.data) op io out).Honest ∧
      (Live w' key.data → Reconciled (w'.heap key.data) (w'.heap key.data).state
        (f.call (w.heap key.data) op io out)) := by
  obtain ⟨h, next, w₁, w₂, hh, hran, hent, hcon, hres⟩ :=
    suscription_ran hc.allowed hd hsnd hc.wired hc.current hrun
  obtain ⟨o, hfirst⟩ : ∃ o, (firstWorld key s w).heap key.data =
      { w.heap key.data with origin := o } := by
    cases s with
    | none =>
      refine ⟨.connecting w.currOriginServer, ?_⟩
      simp only [firstWorld, World.heap_modify]
    | some s => exact ⟨_, rfl⟩
  have hstart : Reconciled { w.heap key.data with origin := o } (stateOf s) f :=
    hbal.congr rfl rfl rfl rfl
  have hsends := hc.allowed.sends hd (by rw [hh]; rfl)
  have hhandled := handler_booked hh hc.allowed.not_pipeDream (by rw [hfirst]; exact hstart.wf)
    (by rw [hfirst]; exact hstart.ready) (by rw [hfirst]; exact ⟨hsends.client, hsends.origin⟩)
    (by rw [hfirst]; exact hc.wired.apart) next w₁ hran
  have hhandled := hhandled.of_firstWorld
  have hentered := enter_entered hhandled.wf hhandled.entering hent
  obtain ⟨out, hout, -⟩ := hhandled.moved
  have hafter := hbal.call (Pop3.state_eq hc.current) hhandled hentered hout
  have hout₂ : w₂.output = w.output ++ out := hentered.output.trans hout
  rw [conclude] at hcon
  rcases hres with ⟨rfl, hfin⟩ | ⟨herr, hupd, -⟩
  · rw [if_pos (.inl rfl)] at hcon
    refine ⟨out, (output_finishedSuscription hcon).trans hout₂, hafter.honest, fun hlive => ?_⟩
    obtain ⟨fd, it, hit, hown⟩ := hlive
    exact absurd hown (hfin.gone fd it hit)
  · have hnot : ¬ (next = .error ∨ next = .update) := not_or.mpr ⟨herr, hupd⟩
    rw [if_neg hnot] at hcon
    obtain rfl := Except.ok.inj hcon
    refine ⟨out, hout₂, hafter.honest, fun _ => ?_⟩
    have hcur : (w₂.modify key.data fun c => { c with current := some next.num }).heap key.data =
        { w₂.heap key.data with current := some next.num } := World.heap_modify _ _ _
    rw [hcur, Pop3.state_eq (s := some next) rfl]
    exact hafter.congr rfl rfl rfl rfl

/-- A connection that was just accepted has the welcome to send. -/
theorem reconciled_new (client : Int) : Reconciled (.new client) (Pop3.new client).state {} where
  wf := ⟨Buffer.wf_init _ _, Buffer.wf_init _ _, Buffer.wf_init _ _⟩
  ready := rfl
  toOrigin := List.nil_sublist _
  toFilter := List.nil_sublist _
  toClient := List.Sublist.refl _
  astray := rfl

/-- The books as a record. -/
def books : Record Ledger where
  start := {}
  call := Ledger.call

/-- The ledger is the record of the last connection at the address. -/
theorem ledgerOf_eq (a : Addr) (t : List Posting) : ledgerOf a t = books.ofAddr a t := by
  have hpost : Ledger.post a = books.post a := by
    funext f o
    cases o <;> rfl
  rw [ledgerOf, hpost]
  rfl

/-- Whatever happens to a connection, its books stay honest, and balanced while it lives. -/
theorem books_keeps : books.Keeps Ledger.Honest fun c f => Reconciled c c.state f where
  good := (reconciled_new 0).honest
  new := reconciled_new
  resolved _ h := h.congr rfl rfl rfl rfl
  event hsnd hc hd hbal hrun := by
    rw [Pop3.state_eq hc.current] at hbal
    exact suscription_reconciled hsnd hc hd hbal hrun

end

/-- **What goes through the program.**  In every run, whatever its peers, the system calls and the
resolvers do, what a connection has sent to the origin are octets it has received from the client,
what it has written to the filter are octets it has received from the origin, and what it has sent
to the client are octets of the welcome and of what it has received from the origin and read from
the filter; none goes out twice, and they stay in order.  Nothing is sent on a descriptor other than
the two of the connection, or written to a pipe other than the one its struct has or one that is
made in the call. -/
theorem passes_on (server : Int) (origin : AddrType) (es : List Event) (a : Addr) :
    let f := ledgerOf a (proxySystem.observe Proxy.posts (.start server origin) es)
    f.toOrigin.Sublist f.fromClient ∧ f.toFilter.Sublist f.fromOrigin ∧
      f.toClient.Sublist (greetingOk ++ f.supply) ∧ f.astray = [] := by
  intro f
  have hhonest : f.Honest := by
    show (ledgerOf a _).Honest
    rw [ledgerOf_eq]
    exact books_keeps.run server origin es a
  exact ⟨hhonest.toOrigin, hhonest.toFilter, hhonest.toClient, hhonest.astray⟩

end Pop3Proxy
