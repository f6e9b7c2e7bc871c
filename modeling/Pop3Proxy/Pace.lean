/-
# The proxy never spins

A handler call is paid for by the octets it receives or sends, or it brings the connection nearer to
a state in which it waits for its peers.  So a connection is called about as often as it has octets
to pass on, apart from the calls that are told to wait.
-/
import Pop3Proxy.Passage

namespace Pop3Proxy

/-! ## What a call is paid with -/

/-- How many calls a connection can make from here on that receive and send nothing. -/
def States.rank : States → ℕ
  | .processConnection => 6
  | .resolvConnection => 5
  | .establConnection => 4
  | .greetingSread => 3
  | .greetingCwrite | .commandSwrite | .dotDataCwrite | .responseCwrite => 2
  | .commandCread | .responseSread | .dotDataSread | .pipeDream => 1
  | .update | .error => 0

namespace Pop3

/-- What the handler of a state offers to `send`. -/
def offered (c : Pop3) : States → List Byte
  | .greetingCwrite => c.writeBuffer.contents
  | .commandSwrite => c.readBuffer.contents
  | .dotDataCwrite | .responseCwrite => c.relayBuffer.contents
  | _ => []

/-- A call that is told to wait: the greeting is not there yet, or nothing of what is offered is
taken. -/
def told (c : Pop3) (s : States) (io : Io) : Bool :=
  match s with
  | .greetingSread => (c.readBuffer.got io.recv).isEmpty &&
      (io.errno = .eagain || io.errno = .ewouldblock)
  | s => !(c.offered s).isEmpty && taken io.send (c.offered s) = some []

/-- What the octets of a call pay for. -/
def payment (c : Pop3) (s : States) (op : Op) (io : Io) (out : List Output) : ℕ :=
  2 * ((c.fromClient s op io).length + (c.fromOrigin s op io).length) +
    (sentOn c.originFd out).length + (sentOn c.clientFd out).length

end Pop3

/-- The calls of a connection, and those of them that are told to wait. -/
structure Pace where
  calls : ℕ := 0
  waits : ℕ := 0

/-- The calls as a record. -/
def pace : Record Pace where
  start := {}
  call f c _ io _ := ⟨f.calls + 1, f.waits + (c.told c.state io).toNat⟩

/-- What the octets of a connection pay for. -/
def Ledger.payment (f : Ledger) : ℕ :=
  2 * (f.fromClient.length + f.fromOrigin.length) + f.toOrigin.length + f.toClient.length

/-- A call adds its own payment. -/
theorem Ledger.payment_call (f : Ledger) (c : Pop3) (op : Op) (io : Io) (out : List Output) :
    (f.call c op io out).payment = f.payment + c.payment c.state op io out := by
  simp only [Ledger.payment, Ledger.call, Pop3.payment, List.length_append]
  omega

/-! ## One call -/

/-- What a call in the state `s` is paid with is enough for it and for the rank `k`. -/
def Pays (io : Io) (key : SelectorKey) (op : Op) (s : States) (w w' : World) (k : ℕ) : Prop :=
  ∀ out, w'.output = w.output ++ out →
    1 + k ≤ s.rank + (w.heap key.data).payment s op io out + ((w.heap key.data).told s io).toNat

/-- Whatever a handler in the state `s` returns, it is paid for. -/
def Paid (io : Io) (key : SelectorKey) (op : Op) (s : States) (w : World)
    (r : Except Fault (States × World)) : Prop :=
  ∀ next w', r = .ok (next, w') → Pays io key op s w w' next.rank

section
variable {io : Io} {key : SelectorKey} {op : Op} {s next : States} {w w' : World} {k : ℕ}

/-- Less may be asked for. -/
theorem Pays.mono {j : ℕ} (h : Pays io key op s w w' k) (hj : j ≤ k) : Pays io key op s w w' j := by
  intro out hout
  have hk := h out hout
  omega

/-- A step towards a state in which the connection waits. -/
theorem pays_rank (h : k < s.rank) : Pays io key op s w w' k := by
  intro out _
  omega

/-- A call that was told to wait. -/
theorem pays_told (h : (w.heap key.data).told s io = true) (hk : k ≤ s.rank) :
    Pays io key op s w w' k := by
  intro out _
  rw [h]
  have hone : true.toNat = 1 := rfl
  omega

/-- Octets were received. -/
theorem pays_received (h : (w.heap key.data).fromClient s op io ≠ [] ∨
    (w.heap key.data).fromOrigin s op io ≠ []) (hk : k ≤ s.rank + 1) : Pays io key op s w w' k := by
  intro out _
  have hpos : 0 < ((w.heap key.data).fromClient s op io).length +
      ((w.heap key.data).fromOrigin s op io).length := by
    rcases h with h | h <;> have hlen := List.length_pos_iff.mpr h <;> omega
  rw [Pop3.payment]
  omega

/-- Octets were sent to a peer. -/
theorem pays_sent {sent : List Byte} (hout : w'.output = w.output ++ [.sent key.fd sent])
    (hfd : key.fd = (w.heap key.data).originFd ∨ key.fd = (w.heap key.data).clientFd)
    (hne : sent ≠ []) (hk : k ≤ s.rank) : Pays io key op s w w' k := by
  intro out hout'
  rw [hout, List.append_cancel_left_eq] at hout'
  subst hout'
  have hlen := List.length_pos_iff.mpr hne
  have hsent : sent.length ≤ (w.heap key.data).payment s op io [.sent key.fd sent] := by
    rw [Pop3.payment, sentOn_sent, sentOn_sent]
    rcases hfd with hfd | hfd <;> rw [if_pos hfd] <;> omega
  omega

/-- What is computed first pays nothing. -/
theorem paid_bind {α : Type} {x : Except Fault α} {f : α → Except Fault (States × World)}
    (h : ∀ v, x = .ok v → Paid io key op s w (f v)) : Paid io key op s w (x >>= f) := by
  intro next w' heq
  obtain ⟨v, hv, heq⟩ := bind_eq_ok.mp heq
  exact h v hv next w' heq

/-- A handler that returns has paid. -/
theorem paid_ok (h : Pays io key op s w w' next.rank) : Paid io key op s w (.ok (next, w')) := by
  intro next' w'' heq
  obtain ⟨rfl, rfl⟩ := Prod.mk.inj (Except.ok.inj heq)
  exact h

/-- The connection waits for a peer, or ends. -/
theorem paid_armed (h : Pays io key op s w w' next.rank) (fd : Int) (i : FdInterest) :
    Paid io key op s w (.ok (w'.armed fd i next)) := by
  intro next' w'' heq
  obtain ⟨hnext, rfl⟩ := Prod.mk.inj (Except.ok.inj heq)
  split_ifs at hnext
  · subst hnext
    exact h
  · subst hnext
    exact h.mono (Nat.zero_le _)

/-- Giving the turn to another descriptor costs nothing. -/
theorem paid_handOver (h : Pays io key op s w w' next.rank) (off on : Int) (i : FdInterest) :
    Paid io key op s w (.ok (w'.handOver off on i next)) := by
  have hoff : Pays io key op s w (w'.setInterest off OP_NOOP).2 next.rank := h
  exact paid_armed hoff on i

/-! ### Before the greeting -/

/-- The first handler. -/
theorem processConnection_paid :
    Paid io key op .processConnection w (processConnection io key w) := by
  unfold processConnection
  refine paid_bind fun server _ => ?_
  intro next w' h
  cases server with
  | ipv4 =>
    obtain ⟨rfl, -⟩ := attemptConnection_idles h
    exact pays_rank (by decide)
  | ipv6 =>
    obtain ⟨rfl, -⟩ := attemptConnection_idles h
    exact pays_rank (by decide)
  | domain =>
    simp only at h
    split_ifs at h
    all_goals
      obtain ⟨rfl, rfl⟩ := Prod.mk.inj (Except.ok.inj h)
      exact pays_rank (by decide)

/-- The handler that takes a resolved name. -/
theorem resolvConnection_paid : Paid io key op .resolvConnection w (resolvConnection io key w) := by
  unfold resolvConnection
  refine paid_bind fun _ _ => ?_
  intro next w' h
  obtain ⟨rfl, -⟩ := attemptConnection_idles h
  exact pays_rank (by decide)

/-- The handler that turns to the greeting. -/
theorem establConnection_paid : Paid io key op .establConnection w (establConnection key w) := by
  unfold establConnection
  refine paid_bind fun _ _ => ?_
  intro next w' h
  obtain ⟨hnext, rfl⟩ := Prod.mk.inj (Except.ok.inj h)
  split_ifs at hnext
  · subst hnext
    exact pays_rank (by decide)
  · subst hnext
    exact pays_rank (by decide)

/-! ### Receiving -/

/-- Nothing is got when nothing is read. -/
theorem got_of_none {b : Buffer} {found : Option (List Byte)} {count : ℕ}
    (h : upTo found count = none) : b.got found = [] := by
  rw [Option.map_eq_none_iff.mp h]
  rfl

/-- The greeting is read. -/
theorem greetingSread_paid (hbuf : (w.heap key.data).BuffersWf) :
    Paid io key op .greetingSread w (greetingSread io key w) := by
  have hagain : (w.heap key.data).readBuffer.got io.recv = [] →
      Paid io key op .greetingSread w
        (if io.errno = .eagain ∨ io.errno = .ewouldblock then .ok (.greetingSread, w)
          else .ok (.greetingCwrite, w)) := by
    intro hgot
    split_ifs with herrno
    · refine paid_ok (pays_told ?_ (Nat.le_refl _))
      rw [Pop3.told, hgot]
      simpa using herrno
    · exact paid_ok (pays_rank (by decide))
  unfold greetingSread
  refine paid_bind fun p _ => paid_bind fun count hcount => ?_
  cases hrecv : upTo io.recv count with
  | none => exact hagain (got_of_none hrecv)
  | some bs =>
    cases bs with
    | nil => exact hagain (got_upTo hbuf.readBuffer hcount hrecv).1
    | cons c cs =>
      refine paid_bind fun rb _ => ?_
      simp only
      split_ifs
      · exact paid_handOver (pays_rank (by decide)) _ _ _
      · exact paid_ok (pays_rank (by decide))

/-- A command is read. -/
theorem commandCread_paid (hbuf : (w.heap key.data).BuffersWf) :
    Paid io key .read .commandCread w (commandCread io key w) := by
  unfold commandCread
  refine paid_bind fun count hcount => ?_
  cases hrecv : upTo io.recv count with
  | none => exact paid_ok (pays_rank (by decide))
  | some bs =>
    cases bs with
    | nil => exact paid_ok (pays_rank (by decide))
    | cons b bs =>
      obtain ⟨hgot, -⟩ := got_upTo hbuf.readBuffer hcount hrecv
      have hpays : ∀ {w' : World} {k : ℕ}, k ≤ 2 → Pays io key .read .commandCread w w' k := by
        intro w' k hk
        refine pays_received (.inl ?_) hk
        show (w.heap key.data).readBuffer.got io.recv ≠ []
        rw [hgot]
        exact List.cons_ne_nil _ _
      refine paid_bind fun rb _ => paid_bind fun rb' _ => ?_
      simp only
      split
      · exact paid_handOver (hpays (by decide)) _ _ _
      · exact paid_armed (hpays (by decide)) _ _
      · exact paid_ok (hpays (by decide))

/-- A chunk of a reply of many lines. -/
theorem responseMultiline_paid {w₁ : World} {chunk : List Byte} {p : SinglelineState}
    {m : MultilineState} (hpays : ∀ {w' : World} {k : ℕ}, k ≤ 2 → Pays io key op s w w' k) :
    Paid io key op s w (responseMultiline io key chunk p m w₁) := by
  unfold responseMultiline
  simp only
  refine paid_bind fun w₂ _ => paid_handOver (hpays ?_) _ _ _
  split_ifs <;> decide

/-- The reply is read. -/
theorem responseSread_paid (hbuf : (w.heap key.data).BuffersWf) :
    Paid io key .read .responseSread w (responseSread io key w) := by
  unfold responseSread
  refine paid_bind fun pm _ => paid_bind fun count hcount => ?_
  cases hrecv : upTo io.recv count with
  | none => exact paid_ok (pays_rank (by decide))
  | some bs =>
    cases bs with
    | nil => exact paid_ok (pays_rank (by decide))
    | cons b bs =>
      obtain ⟨hgot, -⟩ := got_upTo hbuf.writeBuffer hcount hrecv
      have hpays : ∀ {w' : World} {k : ℕ}, k ≤ 2 → Pays io key .read .responseSread w w' k := by
        intro w' k hk
        refine pays_received (.inr ?_) hk
        show (w.heap key.data).writeBuffer.got io.recv ≠ []
        rw [hgot]
        exact List.cons_ne_nil _ _
      refine paid_bind fun wb _ => ?_
      simp only
      split_ifs
      · split
        · exact responseMultiline_paid hpays
        · exact responseMultiline_paid hpays
        · exact paid_handOver (hpays (by decide)) _ _ _
      · exact paid_ok (hpays (by decide))

/-- The rest of it is read. -/
theorem dotDataSread_paid (hbuf : (w.heap key.data).BuffersWf) :
    Paid io key .read .dotDataSread w (dotDataSread io key w) := by
  unfold dotDataSread
  refine paid_bind fun _ _ => paid_bind fun count hcount => ?_
  cases hrecv : upTo io.recv count with
  | none => exact paid_ok (pays_rank (by decide))
  | some bs =>
    cases bs with
    | nil => exact paid_ok (pays_rank (by decide))
    | cons b bs =>
      obtain ⟨hgot, -⟩ := got_upTo hbuf.writeBuffer hcount hrecv
      refine paid_bind fun wb _ => paid_bind fun w₂ _ =>
        paid_handOver (pays_received (.inr ?_) ?_) _ _ _
      · show (w.heap key.data).writeBuffer.got io.recv ≠ []
        rw [hgot]
        exact List.cons_ne_nil _ _
      · split_ifs <;> decide

/-! ### Sending -/

/-- The states whose handlers send. -/
def States.Sending (s : States) : Prop :=
  s = .greetingCwrite ∨ s = .commandSwrite ∨ s = .dotDataCwrite ∨ s = .responseCwrite

/-- A part of what is offered was sent, and the handler is called again. -/
theorem pays_again {sent : List Byte} (hs : s.Sending)
    (hsent : taken io.send ((w.heap key.data).offered s) = some sent)
    (hne : (w.heap key.data).offered s ≠ []) (hout : w'.output = w.output ++ [.sent key.fd sent])
    (hfd : key.fd = (w.heap key.data).originFd ∨ key.fd = (w.heap key.data).clientFd) :
    Pays io key op s w w' s.rank := by
  by_cases hnil : sent = []
  · subst hnil
    refine pays_told ?_ (Nat.le_refl _)
    have htold : (w.heap key.data).told s io = (!((w.heap key.data).offered s).isEmpty &&
        taken io.send ((w.heap key.data).offered s) = some []) := by
      rcases hs with rfl | rfl | rfl | rfl <;> rfl
    rw [htold, hsent]
    simpa using hne
  · exact pays_sent hout hfd hnil (Nat.le_refl _)

/-- What is left can be read only where something was offered. -/
theorem offered_of_left {b : Buffer} {bytes : List Byte} {n : ℕ} (h : b.Left (bytes.drop n))
    (hcan : bufferCanRead b = true) : bytes ≠ [] := by
  rintro rfl
  rw [h.canRead, List.drop_nil] at hcan
  cases hcan

/-- The greeting is sent on. -/
theorem greetingCwrite_paid (hbuf : (w.heap key.data).BuffersWf)
    (hfd : key.fd = (w.heap key.data).clientFd) :
    Paid io key op .greetingCwrite w (greetingCwrite io key w) := by
  unfold greetingCwrite
  refine paid_bind fun _ _ => paid_bind fun bytes hbytes => ?_
  rw [Buffer.bufferReadPtr_ok hbuf.writeBuffer, Except.ok.injEq] at hbytes
  subst hbytes
  cases hsent : taken io.send (w.heap key.data).writeBuffer.contents with
  | none => exact paid_ok (pays_rank (by decide))
  | some sent =>
    obtain ⟨n, rfl⟩ := taken_eq hsent
    obtain ⟨b, hb, hleft, -⟩ := Buffer.Left.readAdv ⟨hbuf.writeBuffer, rfl⟩ n
    refine paid_bind fun b' hb' => ?_
    rw [hb, Except.ok.injEq] at hb'
    subst hb'
    simp only
    split_ifs with hcan
    · exact paid_ok (pays_again (.inl rfl) hsent (offered_of_left hleft hcan) rfl (.inr hfd))
    · exact paid_armed (pays_rank (by decide)) _ _

/-- A command is sent on. -/
theorem commandSwrite_paid (hbuf : (w.heap key.data).BuffersWf)
    (hfd : key.fd = (w.heap key.data).originFd) :
    Paid io key op .commandSwrite w (commandSwrite io key w) := by
  unfold commandSwrite
  refine paid_bind fun bytes hbytes => ?_
  rw [Buffer.bufferReadPtr_ok hbuf.readBuffer, Except.ok.injEq] at hbytes
  subst hbytes
  cases hsent : taken io.send (w.heap key.data).readBuffer.contents with
  | none => exact paid_ok (pays_rank (by decide))
  | some sent =>
    obtain ⟨n, rfl⟩ := taken_eq hsent
    have hleft : (({ (w.heap key.data).readBuffer with read := (w.heap key.data).readBuffer.read +
        ((w.heap key.data).readBuffer.contents.take n).length } : Buffer)).Left
          ((w.heap key.data).readBuffer.contents.drop n) :=
      Buffer.Left.readOn ⟨hbuf.readBuffer, rfl⟩ n
    simp only
    split_ifs with hcan
    · exact paid_ok (pays_again (.inr (.inl rfl)) hsent (offered_of_left hleft hcan) rfl (.inl hfd))
    · exact paid_armed (pays_rank (by decide)) _ _

/-- A chunk of a reply is sent on. -/
theorem relay_paid {drained : World → States × World}
    (hs : s = .dotDataCwrite ∨ s = .responseCwrite)
    (hbuf : (w.heap key.data).BuffersWf) (hfd : key.fd = (w.heap key.data).clientFd)
    (hdrained : ∀ w₁, Paid io key op s w (.ok (drained w₁))) :
    Paid io key op s w (relay s drained io key w) := by
  have hrelay : (w.heap key.data).relayBuffer.Wf := by
    rw [Pop3.relayBuffer]
    split_ifs
    · exact hbuf.transBuffer
    · exact hbuf.writeBuffer
  have hoffered : (w.heap key.data).offered s = (w.heap key.data).relayBuffer.contents := by
    rcases hs with rfl | rfl <;> rfl
  have hrank : 0 < s.rank := by
    rcases hs with rfl | rfl <;> decide
  unfold relay
  refine paid_bind fun pm _ => paid_bind fun bytes hbytes => ?_
  have hbytes : bufferReadPtr (w.heap key.data).relayBuffer = .ok bytes := hbytes
  rw [Buffer.bufferReadPtr_ok hrelay, Except.ok.injEq] at hbytes
  subst hbytes
  cases hsent : taken io.send (w.heap key.data).relayBuffer.contents with
  | none => exact paid_ok (pays_rank hrank)
  | some sent =>
    obtain ⟨n, rfl⟩ := taken_eq hsent
    obtain ⟨b, hb, hleft, -⟩ := Buffer.Left.readAdv ⟨hrelay, rfl⟩ n
    refine paid_bind fun b' hb' => ?_
    have hb' : bufferReadAdv (w.heap key.data).relayBuffer
      ((w.heap key.data).relayBuffer.contents.take n).length = .ok b' := hb'
    rw [hb, Except.ok.injEq] at hb'
    subst hb'
    simp only
    split_ifs with hcan
    · refine paid_ok (pays_again (.inr (.inr hs)) (hoffered ▸ hsent) ?_ rfl (.inr hfd))
      rw [hoffered]
      exact offered_of_left hleft hcan
    · exact hdrained _

/-- **Every handler** is paid for. -/
theorem handler_paid {f : World → Except Fault (States × World)}
    (hh : handlerOf io key op s = some f) (hs : s ≠ .pipeDream)
    (hbuf : (w.heap key.data).BuffersWf) (hfd : Sends (w.heap key.data) s key.fd) :
    Paid io key op s w (f w) := by
  cases op <;> cases s <;> cases hh
  · exact greetingSread_paid hbuf
  · exact commandCread_paid hbuf
  · exact responseSread_paid hbuf
  · exact dotDataSread_paid hbuf
  · exact processConnection_paid
  · exact establConnection_paid
  · exact greetingCwrite_paid hbuf (hfd.client (.inl rfl))
  · exact commandSwrite_paid hbuf (hfd.origin rfl)
  · exact relay_paid (.inl rfl) hbuf (hfd.client (.inr (.inr rfl)))
      fun w₁ => paid_handOver (pays_rank (by decide)) _ _ _
  · exact relay_paid (.inr rfl) hbuf (hfd.client (.inr (.inl rfl)))
      fun w₁ => paid_armed (pays_rank (by decide)) _ _
  · exact absurd rfl hs
  · exact resolvConnection_paid

/-! ## Every run -/

/-- Entering a state sends nothing. -/
theorem output_enter (h : enter key s next w = .ok w') : w'.output = w.output := by
  unfold enter at h
  split_ifs at h with heq
  · rw [Except.ok.inj h]
  · cases next with
    | establConnection | greetingSread | dotDataSread =>
      obtain ⟨_, -, h⟩ := bind_eq_ok.mp h
      obtain rfl := Except.ok.inj h
      rfl
    | processConnection | commandCread | responseSread | pipeDream | resolvConnection
      | greetingCwrite | commandSwrite | dotDataCwrite | responseCwrite | update | error =>
      obtain rfl := Except.ok.inj h
      rfl

/-- The first event of a connection only notes the kind of the origin server. -/
theorem Pays.of_firstWorld {so : Option States} (h : Pays io key op s (firstWorld key so w) w' k) :
    Pays io key op s w w' k := by
  cases so with
  | none =>
    intro out hout
    have hk := h out hout
    simp only [firstWorld, World.heap_modify] at hk
    exact hk
  | some so => exact h

/-- **An event of a connection** is paid for. -/
theorem suscription_paid {l : Wires} {so : Option States} {f : Ledger} (hsnd : Sound w)
    (hc : Connected w key.data so l) (hd : Dispatched w key.data so l key.fd op)
    (hbal : Reconciled (w.heap key.data) (stateOf so) f) (hrun : op.suscription io key w = .ok w') :
    Pays io key op (stateOf so) w w' 0 ∧
      (Live w' key.data → Pays io key op (stateOf so) w w' (w'.heap key.data).state.rank) := by
  obtain ⟨h, next, w₁, w₂, hh, hran, hent, hcon, hres⟩ :=
    suscription_ran hc.allowed hd hsnd hc.wired hc.current hrun
  have hsends := hc.allowed.sends hd (by rw [hh]; rfl)
  obtain ⟨hwf, hsends⟩ : ((firstWorld key so w).heap key.data).BuffersWf ∧
      Sends ((firstWorld key so w).heap key.data) (stateOf so) key.fd := by
    cases so with
    | none =>
      simp only [firstWorld, World.heap_modify]
      exact ⟨⟨hbal.wf.readBuffer, hbal.wf.writeBuffer, hbal.wf.transBuffer⟩,
        ⟨hsends.client, hsends.origin⟩⟩
    | some so => exact ⟨hbal.wf, hsends⟩
  have hpaid := (handler_paid hh hc.allowed.not_pipeDream hwf hsends next w₁ hran).of_firstWorld
  have hlater : ∀ {u : World} {k : ℕ}, k ≤ next.rank → u.output = w₁.output →
      Pays io key op (stateOf so) w u k := by
    intro u k hk hu out hout
    exact hpaid.mono hk out (hu.symm.trans hout)
  have hout₂ := output_enter hent
  rw [conclude] at hcon
  rcases hres with ⟨rfl, hfin⟩ | ⟨herr, hupd, -⟩
  · rw [if_pos (.inl rfl)] at hcon
    refine ⟨hlater (Nat.zero_le _) ((output_finishedSuscription hcon).trans hout₂),
      fun hlive => ?_⟩
    obtain ⟨fd, it, hit, hown⟩ := hlive
    exact absurd hown (hfin.gone fd it hit)
  · have hnot : ¬ (next = .error ∨ next = .update) := not_or.mpr ⟨herr, hupd⟩
    rw [if_neg hnot] at hcon
    obtain rfl := Except.ok.inj hcon
    refine ⟨hlater (Nat.zero_le _) hout₂, fun _ => ?_⟩
    have hcur : (w₂.modify key.data fun c => { c with current := some next.num }).heap key.data =
        { w₂.heap key.data with current := some next.num } := World.heap_modify _ _ _
    rw [hcur, Pop3.state_eq (s := some next) rfl]
    exact hlater (Nat.le_refl _) hout₂

/-- The calls of a connection are paid for, and while it lives so is the rank of its state. -/
theorem pace_keeps : (books.prod pace).Keeps
    (fun f => f.2.calls ≤ 6 + f.1.payment + f.2.waits)
    (fun c f => Reconciled c c.state f.1 ∧
      f.2.calls + c.state.rank ≤ 6 + f.1.payment + f.2.waits) where
  good := Nat.zero_le _
  new client := ⟨reconciled_new client, Nat.le_refl 6⟩
  resolved _ h := ⟨books_keeps.resolved _ h.1, h.2⟩
  event := by
    intro io key op so l w w' f hsnd hc hd hagrees hrun
    obtain ⟨hbal, hrank⟩ := hagrees
    obtain ⟨out, hout, -, hafter⟩ := books_keeps.event hsnd hc hd hbal hrun
    have hstate := Pop3.state_eq hc.current
    rw [hstate] at hbal hrank
    obtain ⟨hends, hgoes⟩ := suscription_paid hsnd hc hd hbal hrun
    refine ⟨out, hout, ?_, fun hlive => ⟨hafter hlive, ?_⟩⟩
    · have hpaid := hends out hout
      simp only [Record.prod, books, pace, Ledger.payment_call, hstate]
      omega
    · have hpaid := hgoes hlive out hout
      simp only [Record.prod, books, pace, Ledger.payment_call, hstate]
      omega

end

/-- **The proxy never spins.**  In every run, whatever its peers, the system calls and the resolvers
do, the handlers of a connection are called at most twice for each octet it receives, once for each
octet it sends and six times beside that, the calls excepted that are told to wait. -/
theorem never_spins (server : Int) (origin : AddrType) (es : List Event) (a : Addr) :
    let t := proxySystem.observe Proxy.posts (.start server origin) es
    let f := ledgerOf a t
    let n := pace.ofAddr a t
    n.calls ≤ 6 + 2 * (f.fromClient.length + f.fromOrigin.length) + f.toOrigin.length +
      f.toClient.length + n.waits := by
  intro t f n
  have hpaid := pace_keeps.run server origin es a
  rw [Record.ofAddr_prod, ← ledgerOf_eq] at hpaid
  have hpaid : n.calls ≤ 6 + f.payment + n.waits := hpaid
  rw [Ledger.payment] at hpaid
  omega

end Pop3Proxy
